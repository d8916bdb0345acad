import QuicWorkbench.Lib.Hex
import QuicWorkbench.Proofs.Simulate
import QuicWorkbench.Tracing.ReplayLog

/-!
# Reading the replay log back

A flag that is `false` is skipped by the writer, and the reader has no default for it: a packet that is not dropped on
arrival, and an event that clears no buffer, are written but cannot be read. Everything else reads back as it was.
-/

namespace QuicWorkbench

/-! ### The structs -/

variable {uuid : UuidFormat}

theorem UuidFormat.readsBack (id : Uuid) : uuid.serde.ReadsBack id := Serde.displayFromStr_readsBack (uuid.fromStr_display id)

theorem UpdateNodeStatus.readsBack (status : UpdateNodeStatus) : UpdateNodeStatus.serde.ReadsBack status :=
  Serde.unitVariants_readsBack (by cases status <;> rfl)

theorem UpdateLinkStatus.readsBack (status : UpdateLinkStatus) : UpdateLinkStatus.serde.ReadsBack status :=
  Serde.unitVariants_readsBack (by cases status <;> rfl)

theorem DropReason.readsBack (reason : DropReason) : DropReason.serde.ReadsBack reason :=
  Serde.unitVariants_readsBack (by cases reason <;> rfl)

open Fields (exists_field exists_fieldIfSome)

theorem GenericPacketEvent.readsBack {s : GenericPacketEvent} (hnumber : s.packetNumber < 2 ^ 64)
    (hsize : s.packetSizeBytes < 2 ^ 64) : (GenericPacketEvent.serde uuid).ReadsBack s := by
  obtain ⟨id, hid, hreadId⟩ := exists_field (uuid.readsBack s.packetId) "packet_id"
  obtain ⟨number, hnumber, hreadNumber⟩ := exists_field (Serde.u64_readsBack hnumber) "packet_number"
  obtain ⟨size, hsize, hreadSize⟩ := exists_field (Serde.u64_readsBack hsize) "packet_size_bytes"
  obtain ⟨node, hnode, hreadNode⟩ := exists_field (Serde.string_readsBack s.nodeId) "node_id"
  refine ⟨.object [("packet_id", id), ("packet_number", number), ("packet_size_bytes", size), ("node_id", node)], ?_,
    by simp, ?_⟩
  · simp [serde, Serde.usize, Fields.object, hid, hnumber, hsize, hnode]
  · simp [serde, Serde.usize, Json.asObject, Fields.required, hreadId, hreadNumber, hreadSize, hreadNode]

theorem PacketInNode.readsBack {s : PacketInNode} (hnumber : s.packetNumber < 2 ^ 64)
    (hsize : s.packetSizeBytes < 2 ^ 64) (hflag : s.droppedOnArrival) : (PacketInNode.serde uuid).ReadsBack s := by
  obtain ⟨id, hid, hreadId⟩ := exists_field (uuid.readsBack s.packetId) "packet_id"
  obtain ⟨number, hnumber, hreadNumber⟩ := exists_field (Serde.u64_readsBack hnumber) "packet_number"
  obtain ⟨size, hsize, hreadSize⟩ := exists_field (Serde.u64_readsBack hsize) "packet_size_bytes"
  obtain ⟨node, hnode, hreadNode⟩ := exists_field (Serde.string_readsBack s.nodeId) "node_id"
  obtain ⟨flag, hwrite, hreadFlag⟩ := exists_field (Serde.bool_readsBack s.droppedOnArrival) "dropped_on_arrival"
  refine ⟨.object [("packet_id", id), ("packet_number", number), ("packet_size_bytes", size), ("node_id", node),
    ("dropped_on_arrival", flag)], ?_, by simp, ?_⟩
  · rw [hflag] at hwrite
    simp [serde, Serde.usize, Fields.object, Fields.skipIf, hid, hnumber, hsize, hnode, hflag, hwrite]
  · simp [serde, Serde.usize, Json.asObject, Fields.required, hreadId, hreadNumber, hreadSize, hreadNode, hreadFlag]

theorem PacketDropped.readsBack (s : PacketDropped) : (PacketDropped.serde uuid).ReadsBack s := by
  obtain ⟨id, hid, hreadId⟩ := exists_field (uuid.readsBack s.packetId) "packet_id"
  obtain ⟨node, hnode, hreadNode⟩ := exists_field (Serde.string_readsBack s.nodeId) "node_id"
  obtain ⟨reason, hreason, hreadReason⟩ := exists_field (DropReason.readsBack s.reason) "reason"
  refine ⟨.object [("packet_id", id), ("node_id", node), ("reason", reason)], ?_, by simp, ?_⟩
  · simp [serde, Fields.object, hid, hnode, hreason]
  · simp [serde, Json.asObject, Fields.required, hreadId, hreadNode, hreadReason]

theorem PacketHasExtraDelay.readsBack {s : PacketHasExtraDelay} (hdelay : s.extraDelay < 2 ^ 64) :
    (PacketHasExtraDelay.serde uuid).ReadsBack s := by
  obtain ⟨id, hid, hreadId⟩ := exists_field (uuid.readsBack s.packetId) "packet_id"
  obtain ⟨node, hnode, hreadNode⟩ := exists_field (Serde.string_readsBack s.nodeId) "node_id"
  obtain ⟨delay, hdelay, hreadDelay⟩ := exists_field (Serde.u64_readsBack hdelay) "extra_delay_ns"
  refine ⟨.object [("packet_id", id), ("node_id", node), ("extra_delay_ns", delay)], ?_, by simp, ?_⟩
  · simp [serde, Serde.durationNanoSeconds, Fields.object, hid, hnode, hdelay]
  · simp [serde, Serde.durationNanoSeconds, Json.asObject, Fields.required, hreadId, hreadNode, hreadDelay]

theorem PacketInTransit.readsBack (s : PacketInTransit) : (PacketInTransit.serde uuid).ReadsBack s := by
  obtain ⟨id, hid, hreadId⟩ := exists_field (uuid.readsBack s.packetId) "packet_id"
  obtain ⟨node, hnode, hreadNode⟩ := exists_field (Serde.string_readsBack s.nodeId) "node_id"
  obtain ⟨link, hlink, hreadLink⟩ := exists_field (Serde.string_readsBack s.linkId) "link_id"
  refine ⟨.object [("packet_id", id), ("node_id", node), ("link_id", link)], ?_, by simp, ?_⟩
  · simp [serde, Fields.object, hid, hnode, hlink]
  · simp [serde, Json.asObject, Fields.required, hreadId, hreadNode, hreadLink]

theorem PacketLostInTransit.readsBack (s : PacketLostInTransit) : (PacketLostInTransit.serde uuid).ReadsBack s := by
  obtain ⟨id, hid, hreadId⟩ := exists_field (uuid.readsBack s.packetId) "packet_id"
  obtain ⟨link, hlink, hreadLink⟩ := exists_field (Serde.string_readsBack s.linkId) "link_id"
  refine ⟨.object [("packet_id", id), ("link_id", link)], ?_, by simp, ?_⟩
  · simp [serde, Fields.object, hid, hlink]
  · simp [serde, Json.asObject, Fields.required, hreadId, hreadLink]

theorem NodeEventPayload.readsBack {p : NodeEventPayload} (hflag : p.clearBuffer) :
    NodeEventPayload.serde.ReadsBack p := by
  obtain ⟨node, hnode, hreadNode⟩ := exists_field (Serde.string_readsBack p.nodeId) "node_id"
  obtain ⟨status, hstatus, hreadStatus⟩ := exists_fieldIfSome (fun a (_ : a ∈ p.status) => a.readsBack) "status"
  obtain ⟨flag, hwrite, hreadFlag⟩ := exists_field (Serde.bool_readsBack p.clearBuffer) "clear_buffer"
  refine ⟨.object (("node_id", node) :: (status.map (fun v => ("status", v)) ++ [("clear_buffer", flag)])), ?_, by simp, ?_⟩
  · rw [hflag] at hwrite
    simp [serde, Fields.object, Fields.skipIf, hnode, hstatus, hflag, hwrite]
  · simp [serde, Json.asObject, Fields.required, Fields.optional, hreadNode, hreadStatus, hreadFlag]

/-- The integers and durations of the event fit in 64 bits; durations in nanoseconds. -/
structure LinkEventPayload.InRange (p : LinkEventPayload) : Prop where
  bandwidthBps : ∀ n ∈ p.bandwidthBps, n < 2 ^ 64
  delay : ∀ d ∈ p.delay, d < 2 ^ 64
  extraDelay : ∀ d ∈ p.extraDelay, d < 2 ^ 64

theorem LinkEventPayload.readsBack {p : LinkEventPayload} (h : p.InRange) : LinkEventPayload.serde.ReadsBack p := by
  obtain ⟨link, hlink, hreadLink⟩ := exists_field (Serde.string_readsBack p.linkId) "linkId"
  obtain ⟨status, hstatus, hreadStatus⟩ := exists_fieldIfSome (fun a (_ : a ∈ p.status) => a.readsBack) "status"
  obtain ⟨bandwidth, hbandwidth, hreadBandwidth⟩ :=
    exists_fieldIfSome (fun n hn => Serde.u64_readsBack (h.bandwidthBps n hn)) "bandwidthBps"
  obtain ⟨delay, hdelay, hreadDelay⟩ := exists_fieldIfSome (fun d hd => Serde.duration_readsBack (h.delay d hd)) "delay"
  obtain ⟨extra, hextra, hreadExtra⟩ :=
    exists_fieldIfSome (fun d hd => Serde.duration_readsBack (h.extraDelay d hd)) "extraDelay"
  have hfloat : ∀ (o : Option ℚ), ∀ x ∈ o, Serde.float.ReadsBack x := fun _ x _ => Serde.float_readsBack x
  obtain ⟨ratio, hratio, hreadRatio⟩ := exists_fieldIfSome (hfloat p.extraDelayRatio) "extraDelayRatio"
  obtain ⟨duplication, hduplication, hreadDuplication⟩ :=
    exists_fieldIfSome (hfloat p.packetDuplicationRatio) "packetDuplicationRatio"
  obtain ⟨loss, hloss, hreadLoss⟩ := exists_fieldIfSome (hfloat p.packetLossRatio) "packetLossRatio"
  obtain ⟨congestion, hcongestion, hreadCongestion⟩ :=
    exists_fieldIfSome (hfloat p.congestionEventRatio) "congestionEventRatio"
  refine ⟨.object (("linkId", link) :: (status.map (fun v => ("status", v)) ++ (bandwidth.map (fun v => ("bandwidthBps", v)) ++
    (delay.map (fun v => ("delay", v)) ++ (extra.map (fun v => ("extraDelay", v)) ++
    (ratio.map (fun v => ("extraDelayRatio", v)) ++ (duplication.map (fun v => ("packetDuplicationRatio", v)) ++
    (loss.map (fun v => ("packetLossRatio", v)) ++ congestion.map (fun v => ("congestionEventRatio", v)))))))))), ?_,
    by simp, ?_⟩
  · simp [serde, Fields.object, hlink, hstatus, hbandwidth, hdelay, hextra, hratio, hduplication, hloss, hcongestion]
  · simp [serde, Json.asObject, Fields.required, Fields.optional, hreadLink, hreadStatus, hreadBandwidth, hreadDelay,
      hreadExtra, hreadRatio, hreadDuplication, hreadLoss, hreadCongestion]

theorem NetworkEventStep.readsBack {e : NetworkEventStep} (hlink : ∀ p ∈ e.link, p.InRange)
    (hflag : ∀ p ∈ e.node, p.clearBuffer) : NetworkEventStep.serde.ReadsBack e := by
  obtain ⟨link, hlink, hreadLink⟩ := 
    exists_fieldIfSome (fun p hp => LinkEventPayload.readsBack (hlink p hp)) "link"
  obtain ⟨node, hnode, hreadNode⟩ :=
    exists_fieldIfSome (fun p hp => NodeEventPayload.readsBack (hflag p hp)) "node"
  refine ⟨.object (link.map (fun v => ("link", v)) ++ node.map fun v => ("node", v)), ?_, by simp, ?_⟩
  · simp [serde, Fields.object, hlink, hnode]
  · simp [serde, Json.asObject, Fields.optional, hreadLink, hreadNode]

/-! ### What is not read -/

theorem PacketInNode.deserialize_eq_none {s : PacketInNode} (hflag : s.droppedOnArrival = false) {v : Json}
    (h : (PacketInNode.serde uuid).serialize s = some v) : (PacketInNode.serde uuid).deserialize v = none := by
  obtain ⟨fields, rfl, hget⟩ := Fields.get_of_object "dropped_on_arrival" h (by simp [hflag])
  simp [serde, Json.asObject, Fields.required, hget, Fields.readRequired]

theorem NodeEventPayload.deserialize_eq_none {p : NodeEventPayload} (hflag : p.clearBuffer = false) {v : Json}
    (h : NodeEventPayload.serde.serialize p = some v) : NodeEventPayload.serde.deserialize v = none := by
  obtain ⟨fields, rfl, hget⟩ := Fields.get_of_object "clear_buffer" h (by simp [hflag])
  simp [serde, Json.asObject, Fields.required, Fields.optional, hget, Fields.readRequired]

theorem NetworkEventStep.deserialize_eq_none {e : NetworkEventStep} {p : NodeEventPayload} (hnode : e.node = some p)
    (hflag : p.clearBuffer = false) {v : Json} (h : NetworkEventStep.serde.serialize e = some v) :
    NetworkEventStep.serde.deserialize v = none := by
  obtain ⟨link, hlink, node, hp, rfl⟩ := Fields.object_pair h
  rw [hnode] at hp
  obtain ⟨w, hw, rfl⟩ := Option.map_eq_some_iff.1 hp
  have hlacks : Fields.get link "node" = [] := Fields.lacks_fieldIfSome (by simp) LinkEventPayload.serde e.link link hlink
  obtain ⟨fields, hobject, -⟩ := Fields.get_of_object "clear_buffer" hw (by simp [hflag])
  have hnone : Fields.readOptional NodeEventPayload.serde [w] = none :=
    Fields.readOptional_eq_none (by simp [hobject]) (p.deserialize_eq_none hflag hw)
  simp [serde, Json.asObject, Fields.optional, hlacks, hnone]

namespace SimulationStepKind

/-- The integers and durations in the step fit in 64 bits; durations in nanoseconds. -/
def InRange : SimulationStepKind → Prop
  | .packetInNode s => s.packetNumber < 2 ^ 64 ∧ s.packetSizeBytes < 2 ^ 64
  | .packetDuplicated s | .packetCongestionEvent s | .packetDeliveredToApplication s =>
    s.packetNumber < 2 ^ 64 ∧ s.packetSizeBytes < 2 ^ 64
  | .packetExtraDelay s => s.extraDelay < 2 ^ 64
  | .networkEvent e => ∀ p ∈ e.link, p.InRange
  | .packetDropped _ | .packetLostInTransit _ | .packetInTransit _ => True

/-- The flags in the step, if any, are set. -/
def flagsSet : SimulationStepKind → Bool
  | .packetInNode s => s.droppedOnArrival
  | .networkEvent e => e.node.all fun p => p.clearBuffer
  | _ => true

variable {kind : SimulationStepKind}

variable (uuid) in
theorem readsBack (h : kind.InRange) (hflags : kind.flagsSet) : ∃ data, (kind.content uuid).2 = some data ∧
    deserialize uuid [("type", .string (kind.content uuid).1), ("data", data)] = some kind := by
  cases kind with
  | packetInNode s =>
    obtain ⟨v, hv, -, hread⟩ := PacketInNode.readsBack h.1 h.2 hflags
    exact ⟨v, hv, by simp [deserialize, content, Fields.required, Fields.readRequired, Serde.string, hread]⟩
  | packetDropped s =>
    obtain ⟨v, hv, -, hread⟩ := s.readsBack
    exact ⟨v, hv, by simp [deserialize, content, Fields.required, Fields.readRequired, Serde.string, hread]⟩
  | packetLostInTransit s =>
    obtain ⟨v, hv, -, hread⟩ := s.readsBack
    exact ⟨v, hv, by simp [deserialize, content, Fields.required, Fields.readRequired, Serde.string, hread]⟩
  | packetDuplicated s =>
    obtain ⟨v, hv, -, hread⟩ := GenericPacketEvent.readsBack h.1 h.2
    exact ⟨v, hv, by simp [deserialize, content, Fields.required, Fields.readRequired, Serde.string, hread]⟩
  | packetExtraDelay s =>
    obtain ⟨v, hv, -, hread⟩ := PacketHasExtraDelay.readsBack h
    exact ⟨v, hv, by simp [deserialize, content, Fields.required, Fields.readRequired, Serde.string, hread]⟩
  | packetCongestionEvent s =>
    obtain ⟨v, hv, -, hread⟩ := GenericPacketEvent.readsBack h.1 h.2
    exact ⟨v, hv, by simp [deserialize, content, Fields.required, Fields.readRequired, Serde.string, hread]⟩
  | packetInTransit s =>
    obtain ⟨v, hv, -, hread⟩ := s.readsBack
    exact ⟨v, hv, by simp [deserialize, content, Fields.required, Fields.readRequired, Serde.string, hread]⟩
  | packetDeliveredToApplication s =>
    obtain ⟨v, hv, -, hread⟩ := GenericPacketEvent.readsBack h.1 h.2
    exact ⟨v, hv, by simp [deserialize, content, Fields.required, Fields.readRequired, Serde.string, hread]⟩
  | networkEvent e =>
    have hnode : ∀ p ∈ e.node, p.clearBuffer := by simpa [flagsSet, Option.all_eq_true] using hflags
    obtain ⟨v, hv, -, hread⟩ := NetworkEventStep.readsBack h hnode
    exact ⟨v, hv, by simp [deserialize, content, Fields.required, Fields.readRequired, Serde.string, hread]⟩

theorem deserialize_eq_none (hflags : kind.flagsSet = false) {data : Json} (h : (kind.content uuid).2 = some data) :
    deserialize uuid [("type", .string (kind.content uuid).1), ("data", data)] = none := by
  cases kind with
  | packetInNode s =>
    have hread := s.deserialize_eq_none hflags h
    simp [deserialize, content, Fields.required, Fields.readRequired, Serde.string, hread]
  | networkEvent e =>
    cases hnode : e.node with
    | none => simp [flagsSet, hnode] at hflags
    | some p =>
      have hread := e.deserialize_eq_none hnode (by simpa [flagsSet, hnode] using hflags) h
      simp [deserialize, content, Fields.required, Fields.readRequired, Serde.string, hread]
  | _ => simp [flagsSet] at hflags

end SimulationStepKind

/-! ### The log -/

namespace SimulationStep

/-- The time of the step and the integers in it fit in 64 bits. -/
structure InRange (step : SimulationStep) : Prop where
  relativeTime : step.relativeTime < 2 ^ 64
  kind : step.kind.InRange

variable {step : SimulationStep}

theorem readsBack (h : step.InRange) (hflags : step.kind.flagsSet) : (serde uuid).ReadsBack step := by
  obtain ⟨time, htime, hreadTime⟩ := Fields.exists_field (Serde.u64_readsBack h.relativeTime) "relative_time_ns"
  obtain ⟨data, hdata, hread⟩ := SimulationStepKind.readsBack uuid h.kind hflags
  refine ⟨.object [("relative_time_ns", time), ("type", .string (step.kind.content uuid).1), ("data", data)], ?_, by simp, ?_⟩
  · simp [serde, Serde.durationNanoSeconds, Fields.object, SimulationStepKind.serialize, htime, hdata]
  · simp [serde, Serde.durationNanoSeconds, Json.asObject, Fields.required, hreadTime, hread]

theorem deserialize_eq_none (hflags : step.kind.flagsSet = false) {v : Json} (h : (serde uuid).serialize step = some v) :
    (serde uuid).deserialize v = none := by
  obtain ⟨time, htime, fields, hfields, rfl⟩ := Fields.object_pair h
  obtain ⟨t, -, rfl⟩ := Option.map_eq_some_iff.1 htime
  obtain ⟨data, hdata, rfl⟩ := Option.map_eq_some_iff.1 hfields
  have hnone := SimulationStepKind.deserialize_eq_none hflags hdata
  simp [serde, Json.asObject, hnone]

end SimulationStep

/-- A log reads back if and only if all packets at nodes were dropped on arrival and all node events clear the buffer. -/
theorem replayLog_readsBack_iff {steps : List SimulationStep} (h : ∀ step ∈ steps, step.InRange) :
    ((SimulationStep.serde uuid).list.serialize steps).bind (SimulationStep.serde uuid).list.deserialize = some steps ↔
      ∀ step ∈ steps, step.kind.flagsSet := by
  constructor
  · intro hread step hstep
    obtain ⟨v, hv, hsteps⟩ := Option.bind_eq_some_iff.1 hread
    cases hflags : step.kind.flagsSet with
    | true => rfl
    | false =>
      have hnone : (SimulationStep.serde uuid).list.deserialize v = none :=
        Serde.deserialize_list_eq_none hv hstep fun _ hw => step.deserialize_eq_none hflags hw
      simp [hnone] at hsteps
  · intro hflags
    obtain ⟨v, hv, -, hread⟩ :=
      Serde.list_readsBack fun step hstep => SimulationStep.readsBack (h step hstep) (hflags step hstep)
    rw [hv, Option.bind_some, hread]

/-- In hexadecimal, with hyphens; of the texts that are read, these are the ones that are displayed. -/
def UuidFormat.hyphenated : UuidFormat where
  display id :=
    let cs := Hex.digits 32 id.toNat
    String.ofList (cs.take 8 ++ '-' :: ((cs.drop 8).take 4 ++ '-' :: ((cs.drop 12).take 4 ++ '-' ::
      ((cs.drop 16).take 4 ++ '-' :: cs.drop 20))))
  fromStr s := (Hex.ofDigits 0 (s.toList.filter (· ≠ '-'))).map (BitVec.ofNat 128)
  fromStr_display id := by
    have hkeep : ∀ cs, cs ⊆ Hex.digits 32 id.toNat → cs.filter (· ≠ '-') = cs := by
      intro cs hcs
      exact List.filter_eq_self.2 fun c hc => by simpa using Hex.ne_hyphen_of_mem_digits (hcs hc)
    have hread : Hex.ofDigits 0 (Hex.digits 32 id.toNat) = some id.toNat := Hex.ofDigits_digits_of_lt id.isLt
    generalize Hex.digits 32 id.toNat = cs at hkeep hread
    have htake : ∀ k n, (cs.drop k).take n ⊆ cs := fun k n => List.Subset.trans (List.take_subset ..) (List.drop_subset ..)
    have hjoin : cs.take 8 ++ ((cs.drop 8).take 4 ++ ((cs.drop 12).take 4 ++ ((cs.drop 16).take 4 ++ cs.drop 20))) = cs := by
      rw [show cs.drop 20 = (cs.drop 16).drop 4 by rw [List.drop_drop], List.take_append_drop,
        show cs.drop 16 = (cs.drop 12).drop 4 by rw [List.drop_drop], List.take_append_drop,
        show cs.drop 12 = (cs.drop 8).drop 4 by rw [List.drop_drop], List.take_append_drop, List.take_append_drop]
    have hhyphen : ∀ r : List Char, ('-' :: r).filter (· ≠ '-') = r.filter (· ≠ '-') := fun r => by simp
    show (Hex.ofDigits 0 ((String.ofList _).toList.filter _)).map _ = _
    rw [String.toList_ofList]
    simp only [List.filter_append, hhyphen]
    rw [hkeep _ (List.take_subset ..), hkeep _ (htake ..), hkeep _ (htake ..), hkeep _ (htake ..), hkeep _ (List.drop_subset ..),
      hjoin, hread]
    simp

/-- The application of a host sends a packet; the log of that run cannot be read. -/
theorem replayLog_not_read : ∃ net s v, Reaches false (hostPair 8000000 0) [] net s ∧
    (SimulationStep.serde .hyphenated).list.serialize s.log = some v ∧ (SimulationStep.serde .hyphenated).list.deserialize v = none := by
  obtain ⟨net, s, hreach, hs⟩ := exists_reaches_of_simulate (hostPair 8000000 0) []
    [.trySend 0 HostPair.transmit 1 (HostPair.draws 0)]
    (fun _ s => ((SimulationStep.serde .hyphenated).list.serialize s.log).any fun v =>
      ((SimulationStep.serde .hyphenated).list.deserialize v).isNone)
    (by decide +kernel)
  obtain ⟨v, hv, hnone⟩ := (Option.any_eq_true _ _).1 hs
  exact ⟨net, s, v, hreach, hv, by simpa using hnone⟩

/-- A packet that is dropped on arrival, and an event that clears a buffer. -/
theorem replayLog_readsBack_flagsSet :
    ((SimulationStep.serde .hyphenated).list.serialize [⟨5, .packetInNode ⟨1, 0, 128, "A", true⟩⟩,
        ⟨7, .networkEvent ⟨none, some ⟨"A", some .up, true⟩⟩⟩]).bind (SimulationStep.serde .hyphenated).list.deserialize =
      some [⟨5, .packetInNode ⟨1, 0, 128, "A", true⟩⟩, ⟨7, .networkEvent ⟨none, some ⟨"A", some .up, true⟩⟩⟩] := by
  refine (replayLog_readsBack_iff fun step hstep => ?_).2 (by simp [SimulationStepKind.flagsSet])
  simp only [List.mem_cons, List.not_mem_nil, or_false] at hstep
  rcases hstep with rfl | rfl
  · exact ⟨by decide, by decide, by decide⟩
  · exact ⟨by decide, by simp [SimulationStepKind.InRange]⟩

end QuicWorkbench
