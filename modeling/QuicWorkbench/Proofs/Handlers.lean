import QuicWorkbench.Tracing.Verifier

/-!
# When a step is replayed, and with what

For every handler of `verify`, what it takes for the replay of a step to end with errors that satisfy `P`
only, and what it ends with then. Nothing else in the proofs looks into a handler that does not stop.
-/

namespace QuicWorkbench

theorem checkedSub_eq_some {a b c : Nat} : checkedSub a b = some c ↔ b ≤ a ∧ a - b = c := by
  unfold checkedSub
  split_ifs with h <;> simp [h]

theorem within_tryFatal_iff {α : Type} {o : Option α} {e : FatalError} {P : NonFatalError → Prop} {a : α} :
    (tryFatal o e).Within P a ↔ o = some a := Tracked.within_ofOption_iff

theorem within_unwrap_iff {α : Type} {o : Option α} {P : NonFatalError → Prop} {a : α} :
    (unwrap o).Within P a ↔ o = some a := Tracked.within_ofOption_iff

/-! ### Nodes -/

namespace ReplayedNode
variable {n n' : ReplayedNode} {P : NonFatalError → Prop} {id : Uuid} {size now : Nat}

/-- An event changes only the status and the times of the last take-down and the last buffer clear. -/
theorem handleEvent_eq (n : ReplayedNode) (payload : NodeEventPayload) (now : Nat) :
    ∃ lastDown, n.handleEvent payload now = { n with
      status := payload.status.getD n.status, lastDown
      lastBufferClear := if payload.clearBuffer then some now else n.lastBufferClear } := by
  unfold handleEvent
  cases payload.status with
  | none => cases payload.clearBuffer <;> exact ⟨_, rfl⟩
  | some status => cases status <;> cases payload.clearBuffer <;> exact ⟨_, rfl⟩

theorem addPacketToBuffer_within_iff : (n.addPacketToBuffer id size now).Within P n' ↔
    (n.status = .down → P (.nodeDownPacketReceive n.id id)) ∧ n.packets.lookup id = none ∧
      n' = { n with packets := n.packets.insert id { sizeBytes := size, extraDelay := 0, arrivedAt := now }
                    bufferUsage := n.bufferUsage + size } := by
  unfold addPacketToBuffer
  rw [Tracked.within_bind_iff]
  simp only [Tracked.within_trackIf_iff, decide_eq_true_eq, exists_const]
  split_ifs with hsome
  · simp only [Tracked.not_within_stop, and_false, false_iff, not_and]
    exact fun _ hnone => absurd hsome (by simp [hnone])
  · rw [Tracked.within_pure_iff, Option.not_isSome_iff_eq_none.1 hsome, eq_comm (b := n')]
    simp

theorem removePacketFromBuffer_within_iff {p : ReplayedPacket} :
    (n.removePacketFromBuffer id).Within P (p, n') ↔ n.packets.lookup id = some p ∧ p.sizeBytes ≤ n.bufferUsage ∧
      n' = { n with packets := n.packets.erase id, bufferUsage := n.bufferUsage - p.sizeBytes } := by
  unfold removePacketFromBuffer
  simp only [Tracked.within_bind_iff, within_tryFatal_iff, within_unwrap_iff, Tracked.within_pure_iff,
    checkedSub_eq_some, Prod.mk.injEq]
  constructor
  · rintro ⟨_, hp, usage, ⟨hle, rfl⟩, rfl, rfl⟩
    exact ⟨hp, hle, rfl⟩
  · rintro ⟨hp, hle, rfl⟩
    exact ⟨p, hp, _, ⟨hle, rfl⟩, rfl, rfl⟩

theorem packetReceived_within_iff {s : PacketInNode} : (n.packetReceived s now).Within P n' ↔
    if s.droppedOnArrival then (n.status = .up → P (.nodeUpPacketDroppedOnArrival n.id s.packetId)) ∧
      n' = { n.trackReceived s with droppedPacketsDown := n.droppedPacketsDown.trackOne s.packetSizeBytes }
    else ((n.trackReceived s).addPacketToBuffer s.packetId s.packetSizeBytes now).Within P n' := by
  unfold packetReceived
  split_ifs with hdropped
  · simp only [Tracked.within_bind_iff, Tracked.within_trackIf_iff, decide_eq_true_eq, exists_const,
      Tracked.within_pure_iff, eq_comm (b := n')]
    rfl
  · rfl

theorem packetSent_within_iff {p : ReplayedPacket} : (n.packetSent id).Within P (p, n') ↔
    (n.status = .down → P (.nodeDownPacketSend n.id id)) ∧
      (∀ t ∈ n.lastBufferClear, p.arrivedAt < t → P (.packetSurvivedBufferCorruption n.id id)) ∧
      n.packets.lookup id = some p ∧ p.sizeBytes ≤ n.bufferUsage ∧
      n' = { n with packets := n.packets.erase id, bufferUsage := n.bufferUsage - p.sizeBytes
                    sentPackets := n.sentPackets.trackOne p.sizeBytes } := by
  unfold packetSent
  simp only [Tracked.within_bind_iff, Tracked.within_trackIf_iff, decide_eq_true_eq, exists_const, Prod.exists,
    removePacketFromBuffer_within_iff, Tracked.within_pure_iff, Option.any_eq_true, Prod.mk.injEq]
  constructor
  · rintro ⟨hdown, _, _, ⟨hp, hle, rfl⟩, hclear, rfl, rfl⟩
    exact ⟨hdown, fun t ht hlt => hclear ⟨t, ht, hlt⟩, hp, hle, rfl⟩
  · rintro ⟨hdown, hclear, hp, hle, rfl⟩
    refine ⟨hdown, p, _, ⟨hp, hle, rfl⟩, ?_, rfl, rfl⟩
    rintro ⟨t, ht, hlt⟩
    exact hclear t ht hlt

theorem packetDeliveredToAppLayer_within_iff : (n.packetDeliveredToAppLayer id).Within P n' ↔
    ∃ p, n.packets.lookup id = some p ∧ p.sizeBytes ≤ n.bufferUsage ∧
      n' = { n with packets := n.packets.erase id, bufferUsage := n.bufferUsage - p.sizeBytes } := by
  unfold packetDeliveredToAppLayer
  simp only [Tracked.within_bind_iff, Prod.exists, removePacketFromBuffer_within_iff, Tracked.within_pure_iff]
  constructor
  · rintro ⟨p, _, ⟨hp, hle, rfl⟩, rfl⟩
    exact ⟨p, hp, hle, rfl⟩
  · rintro ⟨p, hp, hle, rfl⟩
    exact ⟨p, _, ⟨hp, hle, rfl⟩, rfl⟩

theorem packetDropped_within_iff {s : PacketDropped} : (n.packetDropped s).Within P n' ↔
    ∃ p, n.packets.lookup s.packetId = some p ∧ p.sizeBytes ≤ n.bufferUsage ∧
      n' = match s.reason with
        | .random => { n with
            packets := n.packets.erase s.packetId, bufferUsage := n.bufferUsage - p.sizeBytes
            droppedPacketsInjected := n.droppedPacketsInjected.trackOne p.sizeBytes }
        | .bufferFull => { n with
            packets := n.packets.erase s.packetId, bufferUsage := n.bufferUsage - p.sizeBytes
            droppedPacketsBufferFull := n.droppedPacketsBufferFull.trackOne p.sizeBytes }
        | .bufferCleared => { n with
            packets := n.packets.erase s.packetId, bufferUsage := n.bufferUsage - p.sizeBytes
            droppedPacketsBufferCleared := n.droppedPacketsBufferCleared.trackOne p.sizeBytes } := by
  unfold packetDropped
  simp only [Tracked.within_bind_iff, Prod.exists, removePacketFromBuffer_within_iff]
  constructor
  · rintro ⟨p, _, ⟨hp, hle, rfl⟩, hn'⟩
    refine ⟨p, hp, hle, ?_⟩
    cases hreason : s.reason <;> simp only [hreason, Tracked.within_pure_iff] at hn' <;> exact hn'.symm
  · rintro ⟨p, hp, hle, hn'⟩
    refine ⟨p, _, ⟨hp, hle, rfl⟩, ?_⟩
    cases hreason : s.reason <;> simp only [hreason, Tracked.within_pure_iff] at hn' ⊢ <;> exact hn'.symm

theorem packetHasExtraDelay_within_iff {delay : Nat} : (n.packetHasExtraDelay id delay).Within P n' ↔
    ∃ p, n.packets.lookup id = some p ∧ n' = { n with packets := n.packets.insert id { p with extraDelay := delay } } := by
  unfold packetHasExtraDelay
  simp only [Tracked.within_bind_iff, within_tryFatal_iff, Tracked.within_pure_iff, eq_comm (b := n')]

end ReplayedNode

/-! ### Steps -/

namespace SimulationVerifier
variable {v : SimulationVerifier} {r r' : Replay} {now : Nat} {P : NonFatalError → Prop}

theorem packetInNode_within_iff_of_inFlight {s : PacketInNode} {f : InFlightPacket}
    (hf : r.inFlightPackets.lookup s.packetId = some f) : (v.packetInNode r now s).Within P r' ↔
      ∃ metadata link n n', v.linkMetadata.lookup f.linkId = some metadata ∧
        (s.nodeId ≠ metadata.targetNodeId → P (.disconnectedPacketReceive s.nodeId f.linkId)) ∧
        f.sentAtRelative ≤ now ∧
        (now - f.sentAtRelative < metadata.delay + f.extraDelay → P (.tooFastPacketReceive s.nodeId f.linkId)) ∧
        r.links.lookup f.linkId = some link ∧
        (∀ t ∈ link.lastDownRelative, f.sentAtRelative ≤ t →
          P (.offlinePacketReceive s.nodeId f.linkId f.sentAtRelative t)) ∧
        r.nodes.lookup s.nodeId = some n ∧ (n.packetReceived s now).Within P n' ∧
        r' = { r with inFlightPackets := r.inFlightPackets.erase s.packetId, nodes := r.nodes.insert s.nodeId n' } := by
  unfold packetInNode
  rw [hf]
  simp only [Tracked.within_bind_iff, within_tryFatal_iff, within_unwrap_iff, Tracked.within_trackIf_iff, exists_const,
    checkedSub_eq_some, decide_eq_true_eq]
  constructor
  · rintro ⟨metadata, hmetadata, htarget, t, ⟨hle, rfl⟩, hfast, link, hlink, hrest⟩
    have hrest : (∀ t ∈ link.lastDownRelative, f.sentAtRelative ≤ t →
        P (.offlinePacketReceive s.nodeId f.linkId f.sentAtRelative t)) ∧ ∃ n, r.nodes.lookup s.nodeId = some n ∧
          ∃ n', (n.packetReceived s now).Within P n' ∧
            { r with inFlightPackets := r.inFlightPackets.erase s.packetId, nodes := r.nodes.insert s.nodeId n' } = r' := by
      cases hdown : link.lastDownRelative with
      | none =>
        simp only [hdown, Tracked.within_bind_iff, within_tryFatal_iff, Tracked.within_pure_iff] at hrest
        exact ⟨by simp, hrest⟩
      | some t =>
        simp only [hdown, Tracked.within_bind_iff, within_tryFatal_iff, Tracked.within_pure_iff,
          Tracked.within_trackIf_iff, exists_const, decide_eq_true_eq] at hrest
        exact ⟨by simpa using hrest.1, hrest.2⟩
    obtain ⟨hoffline, n, hn, n', hn', rfl⟩ := hrest
    exact ⟨metadata, link, n, n', hmetadata, htarget, hle, hfast, hlink, hoffline, hn, hn', rfl⟩
  · rintro ⟨metadata, link, n, n', hmetadata, htarget, hle, hfast, hlink, hoffline, hn, hn', rfl⟩
    refine ⟨metadata, hmetadata, htarget, _, ⟨hle, rfl⟩, hfast, link, hlink, ?_⟩
    cases hdown : link.lastDownRelative with
    | none =>
      simp only [Tracked.within_bind_iff, within_tryFatal_iff, Tracked.within_pure_iff]
      exact ⟨n, hn, n', hn', rfl⟩
    | some t =>
      simp only [Tracked.within_bind_iff, within_tryFatal_iff, Tracked.within_pure_iff,
        Tracked.within_trackIf_iff, exists_const, decide_eq_true_eq]
      exact ⟨hoffline t (by simp [hdown]), n, hn, n', hn', rfl⟩

theorem packetInNode_within_iff_of_created {s : PacketInNode} (hf : r.inFlightPackets.lookup s.packetId = none) :
    (v.packetInNode r now s).Within P r' ↔ ∃ n n', (s.nodeId ∉ v.hostNodes →
        P (.packetCreatedByRouterNode s.nodeId s.packetId)) ∧ r.nodes.lookup s.nodeId = some n ∧
      (n.addPacketToBuffer s.packetId s.packetSizeBytes now).Within P n' ∧
      r' = { r with nodes := r.nodes.insert s.nodeId n' } := by
  unfold packetInNode
  rw [hf]
  simp only [Tracked.within_bind_iff, within_tryFatal_iff, Tracked.within_trackIf_iff, exists_const,
    Tracked.within_pure_iff, decide_eq_true_eq, ReplayedNode.packetCreated]
  constructor
  · rintro ⟨hhost, n, hn, n', hn', rfl⟩
    exact ⟨n, n', hhost, hn, hn', rfl⟩
  · rintro ⟨n, n', hhost, hn, hn', rfl⟩
    exact ⟨hhost, n, hn, n', hn', rfl⟩

theorem packetDuplicated_within_iff {s : GenericPacketEvent} : (packetDuplicated r now s).Within P r' ↔
    ∃ n n', r.nodes.lookup s.nodeId = some n ∧ (n.packetDuplicated s now).Within P n' ∧
      r' = { r with nodes := r.nodes.insert s.nodeId n' } := by
  unfold packetDuplicated
  simp only [Tracked.within_bind_iff, within_tryFatal_iff, Tracked.within_pure_iff, eq_comm (b := r'), exists_and_left]

theorem packetDropped_within_iff {s : PacketDropped} : (packetDropped r s).Within P r' ↔
    ∃ n n', r.nodes.lookup s.nodeId = some n ∧ (n.packetDropped s).Within P n' ∧
      r' = { r with nodes := r.nodes.insert s.nodeId n' } := by
  unfold packetDropped
  simp only [Tracked.within_bind_iff, within_tryFatal_iff, Tracked.within_pure_iff, eq_comm (b := r'), exists_and_left]

theorem packetDeliveredToApplication_within_iff {s : GenericPacketEvent} :
    (packetDeliveredToApplication r s).Within P r' ↔
      ∃ n n', r.nodes.lookup s.nodeId = some n ∧ (n.packetDeliveredToAppLayer s.packetId).Within P n' ∧
        r' = { r with nodes := r.nodes.insert s.nodeId n' } := by
  unfold packetDeliveredToApplication
  simp only [Tracked.within_bind_iff, within_tryFatal_iff, Tracked.within_pure_iff, eq_comm (b := r'), exists_and_left]

theorem packetExtraDelay_within_iff {s : PacketHasExtraDelay} : (packetExtraDelay r s).Within P r' ↔
    ∃ n n', r.nodes.lookup s.nodeId = some n ∧ (n.packetHasExtraDelay s.packetId s.extraDelay).Within P n' ∧
      r' = { r with nodes := r.nodes.insert s.nodeId n' } := by
  unfold packetExtraDelay
  simp only [Tracked.within_bind_iff, within_tryFatal_iff, Tracked.within_pure_iff, eq_comm (b := r'), exists_and_left]

theorem packetCongestionEvent_within_iff {s : GenericPacketEvent} : (packetCongestionEvent r s).Within P r' ↔
    ∃ n, r.nodes.lookup s.nodeId = some n ∧ r' = { r with nodes := r.nodes.insert s.nodeId (n.packetEcn s) } := by
  unfold packetCongestionEvent
  simp only [Tracked.within_bind_iff, within_tryFatal_iff, Tracked.within_pure_iff, eq_comm (b := r')]

theorem packetLostInTransit_within_iff {s : PacketLostInTransit} : (packetLostInTransit r s).Within P r' ↔
    match r.inFlightPackets.lookup s.packetId with
    | some f => r' = { r with
        inFlightPackets := r.inFlightPackets.erase s.packetId
        statsByLink := r.statsByLink.insert s.linkId
          { (r.statsByLink.lookup s.linkId).getD {} with
            droppedInTransit := ((r.statsByLink.lookup s.linkId).getD {}).droppedInTransit.trackOne f.sizeBytes } }
    | none => P (.missingLostPacket s.packetId) ∧ r' = r := by
  unfold packetLostInTransit
  cases r.inFlightPackets.lookup s.packetId with
  | some f => simp only [Tracked.within_pure_iff, eq_comm (b := r')]
  | none => simp only [Tracked.within_bind_iff, Tracked.within_track_iff, exists_const, Tracked.within_pure_iff, eq_comm (b := r')]

theorem exists_of_packetLostInTransit {s : PacketLostInTransit} (h : (packetLostInTransit r s).Within P r') :
    ∃ inFlightPackets statsByLink, r' = { r with inFlightPackets, statsByLink } := by
  rw [packetLostInTransit_within_iff] at h
  cases hf : r.inFlightPackets.lookup s.packetId with
  | some f =>
    simp only [hf] at h
    exact ⟨_, _, h⟩
  | none =>
    simp only [hf] at h
    exact ⟨r.inFlightPackets, r.statsByLink, h.2⟩

theorem packetInTransit_within_iff {s : PacketInTransit} : (v.packetInTransit r now s).Within P r' ↔
    ∃ n packet n' metadata link link' usage, r.nodes.lookup s.nodeId = some n ∧
      (n.packetSent s.packetId).Within P (packet, n') ∧
      v.linkMetadata.lookup s.linkId = some metadata ∧
      (s.nodeId ≠ metadata.sourceNodeId → P (.disconnectedPacketSend s.nodeId s.linkId)) ∧
      r.links.lookup s.linkId = some link ∧ (link.status ≠ .up → P (.offlinePacketSend s.nodeId s.linkId)) ∧
      link.packetSent now packet.sizeBytes metadata.bandwidthBps = some (link', usage) ∧
      (metadata.bandwidthBps < usage →
        P (.linkBandwidthExceeded s.nodeId s.linkId s.packetId metadata.bandwidthBps usage)) ∧
      r' = { r with
        nodes := r.nodes.insert s.nodeId n'
        links := r.links.insert s.linkId link'
        inFlightPackets := r.inFlightPackets.insert s.packetId
          { sizeBytes := packet.sizeBytes, sentAtRelative := now, linkId := s.linkId, extraDelay := packet.extraDelay } } := by
  unfold packetInTransit
  simp only [Tracked.within_bind_iff, within_tryFatal_iff, within_unwrap_iff, Tracked.within_trackIf_iff, exists_const,
    Tracked.within_pure_iff, decide_eq_true_eq, Bool.not_eq_true', ReplayedLink.isUp, decide_eq_false_iff_not, Prod.exists]
  constructor
  · rintro ⟨n, hn, packet, n', hsent, metadata, hmetadata, hsource, link, hlink, hup, link', usage, husage, hexceeded, rfl⟩
    exact ⟨n, packet, n', metadata, link, link', usage, hn, hsent, hmetadata, hsource, hlink, hup, husage, hexceeded, rfl⟩
  · rintro ⟨n, packet, n', metadata, link, link', usage, hn, hsent, hmetadata, hsource, hlink, hup, husage, hexceeded, rfl⟩
    exact ⟨n, hn, packet, n', hsent, metadata, hmetadata, hsource, link, hlink, hup, link', usage, husage, hexceeded, rfl⟩

theorem linkEvent_within_iff {payload : LinkEventPayload} : (linkEvent r now payload).Within P r' ↔
    match payload.status with
    | none => r' = r
    | some status => ∃ link, r.links.lookup payload.linkId = some link ∧
        r' = { r with links := r.links.insert payload.linkId (link.setStatus status now) } := by
  unfold linkEvent
  cases payload.status with
  | none => simp only [Tracked.within_pure_iff, eq_comm (b := r')]
  | some status => simp only [Tracked.within_bind_iff, within_tryFatal_iff, Tracked.within_pure_iff, eq_comm (b := r')]

theorem nodeEvent_within_iff {payload : NodeEventPayload} : (nodeEvent r now payload).Within P r' ↔
    ∃ n, r.nodes.lookup payload.nodeId = some n ∧
      r' = { r with nodes := r.nodes.insert payload.nodeId (n.handleEvent payload now) } := by
  unfold nodeEvent
  simp only [Tracked.within_bind_iff, within_tryFatal_iff, Tracked.within_pure_iff, eq_comm (b := r')]

theorem networkEvent_within_iff {e : NetworkEventStep} : (networkEvent r now e).Within P r' ↔
    ∃ r₁, (∀ payload ∈ e.link, (linkEvent r now payload).Within P r₁) ∧ (e.link = none → r₁ = r) ∧
      (∀ payload ∈ e.node, (nodeEvent r₁ now payload).Within P r') ∧ (e.node = none → r' = r₁) := by
  unfold networkEvent
  rw [Tracked.within_bind_iff]
  refine exists_congr fun r₁ => ?_
  cases e.link <;> cases e.node <;> simp [Tracked.within_pure_iff, -Tracked.pure_eq, eq_comm]

theorem exists_of_linkEvent {payload : LinkEventPayload} (h : (linkEvent r now payload).Within P r') :
    ∃ links, r' = { r with links } := by
  rw [linkEvent_within_iff] at h
  cases hstatus : payload.status with
  | none =>
    simp only [hstatus] at h
    exact ⟨r.links, h⟩
  | some status =>
    simp only [hstatus] at h
    obtain ⟨link, -, rfl⟩ := h
    exact ⟨_, rfl⟩

theorem exists_of_networkEvent {e : NetworkEventStep} (h : (networkEvent r now e).Within P r') :
    ∃ links, (e.node = none ∧ r' = { r with links }) ∨
      ∃ payload n, e.node = some payload ∧ r.nodes.lookup payload.nodeId = some n ∧
        r' = { r with links, nodes := r.nodes.insert payload.nodeId (n.handleEvent payload now) } := by
  obtain ⟨r₁, hlink, hnolink, hnode, hnonode⟩ := networkEvent_within_iff.1 h
  obtain ⟨links, rfl⟩ : ∃ links, r₁ = { r with links } := by
    cases hl : e.link with
    | none => exact ⟨r.links, hnolink hl⟩
    | some payload => exact exists_of_linkEvent (hlink payload hl)
  refine ⟨links, ?_⟩
  cases hn : e.node with
  | none => exact .inl ⟨rfl, hnonode hn⟩
  | some payload =>
    obtain ⟨n, hlookup, rfl⟩ := nodeEvent_within_iff.1 (hnode payload hn)
    exact .inr ⟨payload, n, rfl, hlookup, rfl⟩

end SimulationVerifier

end QuicWorkbench
