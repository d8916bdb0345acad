import QuicWorkbench.Proofs.Visits
import QuicWorkbench.Proofs.Mirror
import QuicWorkbench.Proofs.Usage

/-!
# What the log says about nodes and links

The verifier keeps summaries: a status, the time of the last buffer clear, an entry for each packet. Here is what they
summarise, as functions of the steps so far, and that along every replay that has not stopped the summaries are right
(`replay_history`).
-/

namespace QuicWorkbench

/-! ### Nodes -/

/-- When the last of the steps that cleared the buffer of the node did. -/
def lastClearAfter (steps : List SimulationStep) (nodeId : String) : Option Nat :=
  steps.foldl (fun lastClear step =>
    if step.kind.nodeId = some nodeId ∧ step.kind.clearsBuffer then some step.relativeTime else lastClear) none

theorem lastClearAfter_snoc (steps : List SimulationStep) (step : SimulationStep) (nodeId : String) :
    lastClearAfter (steps ++ [step]) nodeId =
      if step.kind.nodeId = some nodeId ∧ step.kind.clearsBuffer then some step.relativeTime
      else lastClearAfter steps nodeId := by
  simp [lastClearAfter]

/-- What the step does to the buffer of the node, going by the steps before it. -/
def bufferOpAt (before : List SimulationStep) (kind : SimulationStepKind) (nodeId : String) : BufferOp :=
  if kind.nodeId = some nodeId then kind.bufferOp (inFlightAfter before) else .leave

/-- The packets in a buffer, and their sizes. -/
def BufferOp.residents (residents : List (Uuid × Nat)) : BufferOp → List (Uuid × Nat)
  | .leave => residents
  | .put id size => (id, size) :: residents
  | .take id => residents.filter (·.1 ≠ id)
  | .delay _ _ => residents

/-- The packets that the steps put into the buffer of the node and did not take out of it since, and their sizes. -/
def residentsAfter (steps : List SimulationStep) (nodeId : String) : List (Uuid × Nat) :=
  foldAlong (fun before residents step => (bufferOpAt before step.kind nodeId).residents residents) [] steps

theorem residentsAfter_snoc (steps : List SimulationStep) (step : SimulationStep) (nodeId : String) :
    residentsAfter (steps ++ [step]) nodeId = (bufferOpAt steps step.kind nodeId).residents (residentsAfter steps nodeId) :=
  foldAlong_snoc

/-- The bytes of the packets in the buffer of the node. -/
def residentBytes (steps : List SimulationStep) (nodeId : String) : Nat := ((residentsAfter steps nodeId).map Prod.snd).sum

/-- The extra delay of a packet in a buffer; a packet that is not there has none. -/
def BufferOp.extraDelay (id : Uuid) (extraDelay : Nat) : BufferOp → Nat
  | .leave => extraDelay
  | .put u _ => if u = id then 0 else extraDelay
  | .take u => if u = id then 0 else extraDelay
  | .delay u d => if u = id then d else extraDelay

/-- The extra delay recorded for the packet while it has been in the buffer of the node. -/
def extraDelayAfter (steps : List SimulationStep) (nodeId : String) (id : Uuid) : Nat :=
  foldAlong (fun before extraDelay step => (bufferOpAt before step.kind nodeId).extraDelay id extraDelay) 0 steps

theorem extraDelayAfter_snoc (steps : List SimulationStep) (step : SimulationStep) (nodeId : String) (id : Uuid) :
    extraDelayAfter (steps ++ [step]) nodeId id =
      (bufferOpAt steps step.kind nodeId).extraDelay id (extraDelayAfter steps nodeId id) := foldAlong_snoc

/-- When a packet in a buffer arrived; a packet that is not there did not. -/
def BufferOp.arrival (id : Uuid) (now : Nat) (arrival : Option Nat) : BufferOp → Option Nat
  | .leave => arrival
  | .put u _ => if u = id then some now else arrival
  | .take u => if u = id then none else arrival
  | .delay _ _ => arrival

/-- When the packet got into the buffer of the node that it has been in since. -/
def arrivalAfter (steps : List SimulationStep) (nodeId : String) (id : Uuid) : Option Nat :=
  foldAlong (fun before arrival step => (bufferOpAt before step.kind nodeId).arrival id step.relativeTime arrival) none steps

theorem arrivalAfter_snoc (steps : List SimulationStep) (step : SimulationStep) (nodeId : String) (id : Uuid) :
    arrivalAfter (steps ++ [step]) nodeId id =
      (bufferOpAt steps step.kind nodeId).arrival id step.relativeTime (arrivalAfter steps nodeId id) := foldAlong_snoc

/-- What the verifier keeps of a node is what the steps say. -/
structure NodeHistory (steps : List SimulationStep) (nodeId : String) (n : ReplayedNode) : Prop where
  status : n.status = nodeStatusAfter steps nodeId
  lastBufferClear : n.lastBufferClear = lastClearAfter steps nodeId
  sound : n.Sound
  residents : ∀ id size, (id, size) ∈ residentsAfter steps nodeId ↔ n.Buffers id size
  nodup : ((residentsAfter steps nodeId).map Prod.fst).Nodup
  extraDelay : ∀ id, ((n.packets.lookup id).map ReplayedPacket.extraDelay).getD 0 = extraDelayAfter steps nodeId id
  arrival : ∀ id, (n.packets.lookup id).map ReplayedPacket.arrivedAt = arrivalAfter steps nodeId id

namespace BufferOp.Applies
variable {op : BufferOp} {now : Nat} {n n' : ReplayedNode} {residents : List (Uuid × Nat)}

theorem sound (h : op.Applies now n n') (hn : n.Sound) : n'.Sound := by
  cases op with
  | leave =>
    obtain ⟨hpackets, husage⟩ := h
    rw [ReplayedNode.Sound, hpackets, husage, hn]
  | put id size =>
    obtain ⟨hnone, hpackets, husage⟩ := h
    exact hn.add hnone hpackets husage
  | take id =>
    obtain ⟨p, hp, -, hpackets, husage⟩ := h
    exact hn.remove hp hpackets husage
  | delay id extraDelay =>
    obtain ⟨p, hp, hpackets, husage⟩ := h
    have hbytes := AList.sumOf_insert_of_some (f := ReplayedPacket.sizeBytes) { p with extraDelay } hp
    have hsame : bufferedBytes n'.packets = bufferedBytes n.packets := by
      rw [hpackets]
      exact Nat.add_right_cancel hbytes
    rw [ReplayedNode.Sound, husage, hsame, hn]

theorem residents_iff (h : op.Applies now n n') (hn : ∀ id size, (id, size) ∈ residents ↔ n.Buffers id size)
    (id : Uuid) (size : Nat) : (id, size) ∈ op.residents residents ↔ n'.Buffers id size := by
  unfold ReplayedNode.Buffers at hn ⊢
  cases op with
  | leave => rw [h.1, ← hn, BufferOp.residents]
  | put u s =>
    obtain ⟨hnone, hpackets, -⟩ := h
    rw [hpackets, BufferOp.residents, List.mem_cons, Prod.mk.injEq, hn]
    by_cases hid : id = u
    · subst hid
      simp [hnone, eq_comm]
    · simp [hid, AList.lookup_insert_ne hid]
  | take u =>
    obtain ⟨p, hp, -, hpackets, -⟩ := h
    rw [hpackets, BufferOp.residents, List.mem_filter, hn]
    by_cases hid : id = u
    · subst hid
      simp
    · simp [hid, AList.lookup_erase_ne hid]
  | delay u d =>
    obtain ⟨p, hp, hpackets, -⟩ := h
    rw [hpackets, BufferOp.residents, hn]
    by_cases hid : id = u
    · subst hid
      simp [hp]
    · simp [AList.lookup_insert_ne hid]

theorem nodup (h : op.Applies now n n') (hn : ∀ id size, (id, size) ∈ residents ↔ n.Buffers id size)
    (hnodup : (residents.map Prod.fst).Nodup) : ((op.residents residents).map Prod.fst).Nodup := by
  cases op with
  | leave => exact hnodup
  | delay u d => exact hnodup
  | put u s =>
    refine List.nodup_cons.2 ⟨fun hmem => ?_, hnodup⟩
    obtain ⟨⟨id, size⟩, hmem, hid⟩ := List.mem_map.1 hmem
    obtain ⟨p, hp, -⟩ := (hn id size).1 hmem
    obtain rfl : id = u := hid
    exact absurd (hp.symm.trans h.1) (by simp)
  | take u => exact hnodup.sublist (List.filter_sublist.map _)

theorem extraDelay (h : op.Applies now n n') (id : Uuid) : ((n'.packets.lookup id).map ReplayedPacket.extraDelay).getD 0 =
    op.extraDelay id (((n.packets.lookup id).map ReplayedPacket.extraDelay).getD 0) := by
  cases op with
  | leave => rw [h.1, BufferOp.extraDelay]
  | put u s =>
    obtain ⟨-, hpackets, -⟩ := h
    rw [hpackets, BufferOp.extraDelay]
    by_cases hid : id = u
    · subst hid
      simp
    · simp [Ne.symm hid, AList.lookup_insert_ne hid]
  | take u =>
    obtain ⟨p, -, -, hpackets, -⟩ := h
    rw [hpackets, BufferOp.extraDelay]
    by_cases hid : id = u
    · subst hid
      simp
    · simp [Ne.symm hid, AList.lookup_erase_ne hid]
  | delay u d =>
    obtain ⟨p, -, hpackets, -⟩ := h
    rw [hpackets, BufferOp.extraDelay]
    by_cases hid : id = u
    · subst hid
      simp
    · simp [Ne.symm hid, AList.lookup_insert_ne hid]

theorem arrival (h : op.Applies now n n') (id : Uuid) : (n'.packets.lookup id).map ReplayedPacket.arrivedAt =
    op.arrival id now ((n.packets.lookup id).map ReplayedPacket.arrivedAt) := by
  cases op with
  | leave => rw [h.1, BufferOp.arrival]
  | put u s =>
    obtain ⟨-, hpackets, -⟩ := h
    rw [hpackets, BufferOp.arrival]
    by_cases hid : id = u
    · subst hid
      simp
    · simp [Ne.symm hid, AList.lookup_insert_ne hid]
  | take u =>
    obtain ⟨p, -, -, hpackets, -⟩ := h
    rw [hpackets, BufferOp.arrival]
    by_cases hid : id = u
    · subst hid
      simp
    · simp [Ne.symm hid, AList.lookup_erase_ne hid]
  | delay u d =>
    obtain ⟨p, hp, hpackets, -⟩ := h
    rw [hpackets, BufferOp.arrival]
    by_cases hid : id = u
    · subst hid
      simp [hp]
    · rw [AList.lookup_insert_ne hid]

end BufferOp.Applies

theorem Visit.applies {before : List SimulationStep} {kind : SimulationStepKind} {now : Nat} {nodeId : String}
    {n n' : ReplayedNode} (hid : kind.nodeId = some nodeId) (h : Visit (inFlightAfter before) kind now n n') :
    (bufferOpAt before kind nodeId).Applies now n n' := by
  rw [bufferOpAt, if_pos hid]
  exact h.buffer

namespace NodeHistory
variable {steps : List SimulationStep} {step : SimulationStep} {nodeId : String} {n n' : ReplayedNode}

theorem new (nodeId : String) : NodeHistory [] nodeId (.new nodeId) := by
  refine ⟨rfl, rfl, rfl, fun id size => ?_, List.nodup_nil, fun id => rfl, fun id => rfl⟩
  simp [residentsAfter, ReplayedNode.Buffers, ReplayedNode.new, AList.lookup_empty]

theorem usage (h : NodeHistory steps nodeId n) (maxBufferUsage : Nat) : NodeHistory steps nodeId { n with maxBufferUsage } :=
  ⟨h.status, h.lastBufferClear, h.sound, h.residents, h.nodup, h.extraDelay, h.arrival⟩

theorem visit (h : NodeHistory steps nodeId n) (hid : step.kind.nodeId = some nodeId)
    (hstatus : n'.status = (step.kind.nodeStatus nodeId).getD n.status)
    (hvisit : Visit (inFlightAfter steps) step.kind step.relativeTime n n') : NodeHistory (steps ++ [step]) nodeId n' := by
  have happlies := hvisit.applies hid
  constructor
  case status => rw [hstatus, nodeStatusAfter_snoc, h.status]
  case lastBufferClear => simp only [hvisit.lastBufferClear, lastClearAfter_snoc, hid, h.lastBufferClear, true_and]
  case sound => exact happlies.sound h.sound
  case residents =>
    rw [residentsAfter_snoc]
    exact happlies.residents_iff h.residents
  case nodup =>
    rw [residentsAfter_snoc]
    exact happlies.nodup h.residents h.nodup
  case extraDelay =>
    intro id
    rw [happlies.extraDelay, h.extraDelay, extraDelayAfter_snoc]
  case arrival =>
    intro id
    rw [happlies.arrival, h.arrival, arrivalAfter_snoc]

theorem frame (h : NodeHistory steps nodeId n) (hid : step.kind.nodeId ≠ some nodeId)
    (hstatus : n.status = (step.kind.nodeStatus nodeId).getD n.status) : NodeHistory (steps ++ [step]) nodeId n := by
  have hop : bufferOpAt steps step.kind nodeId = .leave := if_neg hid
  constructor
  case status => rw [nodeStatusAfter_snoc, ← h.status, ← hstatus]
  case lastBufferClear => simp only [lastClearAfter_snoc, hid, false_and, if_false, h.lastBufferClear]
  case sound => exact h.sound
  case residents =>
    rw [residentsAfter_snoc, hop]
    exact h.residents
  case nodup =>
    rw [residentsAfter_snoc, hop]
    exact h.nodup
  case extraDelay =>
    intro id
    rw [extraDelayAfter_snoc, hop, h.extraDelay, BufferOp.extraDelay]
  case arrival =>
    intro id
    rw [arrivalAfter_snoc, hop, h.arrival, BufferOp.arrival]

theorem perm_residents (h : NodeHistory steps nodeId n) :
    (n.packets.entries.map fun e => (e.1, e.2.sizeBytes)).Perm (residentsAfter steps nodeId) := by
  have hkeys : (n.packets.entries.map fun e => (e.1, e.2.sizeBytes)).map Prod.fst = n.packets.keys := by
    rw [List.map_map]
    rfl
  refine (List.perm_ext_iff_of_nodup ?_ h.nodup.of_map).2 fun ⟨id, size⟩ => ?_
  · exact List.Nodup.of_map Prod.fst (hkeys ▸ n.packets.keys_nodup)
  · rw [h.residents, List.mem_map]
    constructor
    · rintro ⟨⟨u, p⟩, hmem, heq⟩
      obtain ⟨rfl, rfl⟩ := Prod.mk.inj heq
      exact ⟨p, AList.mem_lookup_iff.2 hmem, rfl⟩
    · rintro ⟨p, hp, rfl⟩
      exact ⟨⟨id, p⟩, AList.mem_lookup_iff.1 hp, rfl⟩

theorem bufferUsage (h : NodeHistory steps nodeId n) : n.bufferUsage = residentBytes steps nodeId := by
  rw [h.sound, bufferedBytes, residentBytes, ← (h.perm_residents.map Prod.snd).sum_eq, List.map_map]
  rfl

theorem length_packets (h : NodeHistory steps nodeId n) : n.packets.entries.length = (residentsAfter steps nodeId).length := by
  rw [← h.perm_residents.length_eq, List.length_map]

end NodeHistory

/-! ### Links -/

/-- The status of the link after the steps. -/
def linkStatusAfter (steps : List SimulationStep) (linkId : String) : UpdateLinkStatus :=
  steps.foldl (fun status step => (step.kind.linkStatus linkId).getD status) .up

theorem linkStatusAfter_snoc (steps : List SimulationStep) (step : SimulationStep) (linkId : String) :
    linkStatusAfter (steps ++ [step]) linkId = (step.kind.linkStatus linkId).getD (linkStatusAfter steps linkId) := by
  simp [linkStatusAfter]

/-- What the verifier keeps of a link's status is what the steps say. -/
structure LinkHistory (steps : List SimulationStep) (linkId : String) (l : ReplayedLink) : Prop where
  status : l.status = linkStatusAfter steps linkId
  lastDown : l.lastDownRelative = lastDownAfter steps linkId
  sound : l.Sound

/-! ### Replays -/

/-- What a step makes of a link. -/
structure LinkVisit (kind : SimulationStepKind) (now : Nat) (linkId : String) (l l' : ReplayedLink) : Prop where
  status : l'.status = (kind.linkStatus linkId).getD l.status
  lastDown : l'.lastDownRelative = if kind.linkStatus linkId = some .down then some now else l.lastDownRelative
  sound : l'.Sound
  /-- Only a send on the link moves its window. -/
  window : (∀ s, kind = .packetInTransit s → s.linkId ≠ linkId) →
    l'.packetsInBandwidthWindow = l.packetsInBandwidthWindow ∧ l'.bandwidthUsageBps = l.bandwidthUsageBps ∧
      l'.maxBandwidthUsageBps = l.maxBandwidthUsageBps

namespace SimulationVerifier
variable {v : SimulationVerifier} {r r' : Replay} {P : NonFatalError → Prop} {steps : List SimulationStep}

/-- What holds at the start, does not depend on times and highest usages, and is kept by every step that is replayed,
holds along a replay. -/
theorem replay_induction {I : List SimulationStep → Replay → Prop} (hstart : I [] v.start)
    (husages : ∀ steps r nodes time update, UsagesUpdated r.nodes nodes → I steps r →
      I steps { r with nodes, lastStepTime := time, lastBufferUsageUpdate := update })
    (hstep : ∀ steps step r r', (∀ id, (r.inFlightPackets.lookup id).isSome = inFlightAfter steps id) → I steps r →
      (v.replayKind r step.relativeTime step.kind).Within P r' → I (steps ++ [step]) r')
    (h : (v.replay v.start steps).Within P r) : I steps r := by
  induction steps using List.reverseRecOn generalizing r with
  | nil =>
    obtain rfl := (Tracked.within_pure_iff (P := P)).1 h
    exact hstart
  | append_singleton steps step ih =>
    obtain ⟨r₀, h₀, hlast⟩ := Tracked.within_fold_append.1 h
    obtain ⟨nodes, update, hnodes, hkind⟩ := replayStep_within (Tracked.within_fold_singleton.1 hlast)
    have hflight : ∀ id, (r₀.inFlightPackets.lookup id).isSome = inFlightAfter steps id := fun id => flight_replay h₀
    exact hstep steps step { r₀ with nodes, lastStepTime := step.relativeTime, lastBufferUsageUpdate := update } r hflight
      (husages steps r₀ nodes _ _ hnodes (ih h₀)) hkind

theorem node_history (hnew : ∀ id n, v.nodes.lookup id = some n → n = .new id) (h : (v.replay v.start steps).Within P r) :
    ∀ nodeId n, r.nodes.lookup nodeId = some n → NodeHistory steps nodeId n := by
  refine replay_induction (I := fun steps r => ∀ nodeId n, r.nodes.lookup nodeId = some n → NodeHistory steps nodeId n)
    (fun nodeId n hn => ?_) (fun steps r nodes time update hnodes hr nodeId n hn => ?_)
    (fun steps step r r' hflight hr hkind nodeId n' hn' => ?_) h
  · rw [hnew nodeId n hn]
    exact .new nodeId
  · obtain ⟨m, usage, hm, rfl⟩ := hnodes.origin hn
    exact (hr nodeId m hm).usage usage
  · obtain ⟨m, hm, hstep⟩ := (replayKind_nodes v r step.relativeTime step.kind).result r' hkind.1 nodeId n' hn'
    obtain ⟨n, hn, hcases⟩ := (replayKind_visits hkind).origin hn'
    obtain rfl := Option.some.inj (hm.symm.trans hn)
    rw [show (fun id => (r.inFlightPackets.lookup id).isSome) = inFlightAfter steps from funext hflight] at hcases
    rcases hcases with ⟨hid, hvisit⟩ | ⟨hid, rfl⟩
    · exact (hr nodeId m hm).visit hid hstep.status hvisit
    · exact (hr nodeId n' hm).frame hid hstep.status

theorem replayKind_links {now : Nat} {kind : SimulationStepKind} (hsound : ∀ id l, r.links.lookup id = some l → l.Sound)
    (h : (v.replayKind r now kind).Within P r') {linkId : String} {l' : ReplayedLink}
    (hl' : r'.links.lookup linkId = some l') : ∃ l, r.links.lookup linkId = some l ∧ LinkVisit kind now linkId l l' := by
  have hsame : r'.links = r.links → kind.linkStatus linkId = none →
      ∃ l, r.links.lookup linkId = some l ∧ LinkVisit kind now linkId l l' := by
    intro hlinks hnone
    rw [hlinks] at hl'
    exact ⟨l', hl', by simp [hnone], by simp [hnone], hsound _ _ hl', fun _ => ⟨rfl, rfl, rfl⟩⟩
  cases kind with
  | packetInNode s =>
    cases hf : r.inFlightPackets.lookup s.packetId with
    | some f =>
      obtain ⟨metadata, link, n, n', -, -, -, -, -, -, -, -, rfl⟩ := (packetInNode_within_iff_of_inFlight hf).1 h
      exact hsame rfl rfl
    | none =>
      obtain ⟨n, n', -, -, -, rfl⟩ := (packetInNode_within_iff_of_created hf).1 h
      exact hsame rfl rfl
  | packetDuplicated s =>
    obtain ⟨n, n', -, -, rfl⟩ := packetDuplicated_within_iff.1 h
    exact hsame rfl rfl
  | packetDropped s =>
    obtain ⟨n, n', -, -, rfl⟩ := packetDropped_within_iff.1 h
    exact hsame rfl rfl
  | packetLostInTransit s =>
    obtain ⟨inFlightPackets, statsByLink, rfl⟩ := exists_of_packetLostInTransit h
    exact hsame rfl rfl
  | packetExtraDelay s =>
    obtain ⟨n, n', -, -, rfl⟩ := packetExtraDelay_within_iff.1 h
    exact hsame rfl rfl
  | packetCongestionEvent s =>
    obtain ⟨n, -, rfl⟩ := packetCongestionEvent_within_iff.1 h
    exact hsame rfl rfl
  | packetDeliveredToApplication s =>
    obtain ⟨n, n', -, -, rfl⟩ := packetDeliveredToApplication_within_iff.1 h
    exact hsame rfl rfl
  | packetInTransit s =>
    obtain ⟨n, packet, n', metadata, link, link', usage, -, -, -, -, hlink, -, hsent, -, rfl⟩ := packetInTransit_within_iff.1 h
    by_cases hid : linkId = s.linkId
    · subst hid
      rw [AList.lookup_insert] at hl'
      obtain rfl := Option.some.inj hl'
      obtain ⟨l'', usage', hsent', hsound', hstatus, hdown⟩ :=
        (hsound _ _ hlink).packetSent now packet.sizeBytes metadata.bandwidthBps
      obtain ⟨rfl, -⟩ := Prod.mk.inj (Option.some.inj (hsent.symm.trans hsent'))
      exact ⟨link, hlink, hstatus, hdown, hsound', fun hother => absurd rfl (hother s rfl)⟩
    · rw [AList.lookup_insert_ne hid] at hl'
      exact ⟨l', hl', rfl, rfl, hsound _ _ hl', fun _ => ⟨rfl, rfl, rfl⟩⟩
  | networkEvent e =>
    obtain ⟨r₁, hlink, hnolink, hnode, hnonode⟩ := networkEvent_within_iff.1 h
    have hlinks : r'.links = r₁.links := by
      cases hn : e.node with
      | none => rw [hnonode hn]
      | some payload =>
        obtain ⟨n, -, rfl⟩ := nodeEvent_within_iff.1 (hnode payload hn)
        rfl
    cases hl : e.link with
    | none => exact hsame (hlinks.trans (by rw [hnolink hl])) (by simp [SimulationStepKind.linkStatus, hl])
    | some payload =>
      have hevent := linkEvent_within_iff.1 (hlink payload hl)
      cases hstatus : payload.status with
      | none =>
        simp only [hstatus] at hevent
        exact hsame (hlinks.trans (by rw [hevent])) (by simp [SimulationStepKind.linkStatus, hl, hstatus])
      | some status =>
        simp only [hstatus] at hevent
        obtain ⟨link, hlookup, rfl⟩ := hevent
        rw [hlinks] at hl'
        by_cases hid : linkId = payload.linkId
        · subst hid
          rw [AList.lookup_insert] at hl'
          obtain rfl := Option.some.inj hl'
          have hsound : link.Sound := hsound _ _ hlookup
          refine ⟨link, hlookup, ?_, ?_, ?_, fun _ => ?_⟩
          · cases status <;> simp [SimulationStepKind.linkStatus, hl, hstatus, ReplayedLink.setStatus]
          · cases status <;> simp [SimulationStepKind.linkStatus, hl, hstatus, ReplayedLink.setStatus]
          · cases status <;> exact hsound
          · cases status <;> exact ⟨rfl, rfl, rfl⟩
        · rw [AList.lookup_insert_ne hid] at hl'
          have hnone : (SimulationStepKind.networkEvent e).linkStatus linkId = none := by
            simp [SimulationStepKind.linkStatus, hl, Ne.symm hid]
          exact ⟨l', hl', by simp [hnone], by simp [hnone], hsound _ _ hl', fun _ => ⟨rfl, rfl, rfl⟩⟩

theorem link_history (hnew : ∀ id l, v.links.lookup id = some l → l = {}) (h : (v.replay v.start steps).Within P r) :
    ∀ linkId l, r.links.lookup linkId = some l → LinkHistory steps linkId l := by
  refine replay_induction (I := fun steps r => ∀ linkId l, r.links.lookup linkId = some l → LinkHistory steps linkId l)
    (fun linkId l hl => ?_) (fun steps r nodes time update _ hr => hr)
    (fun steps step r r' _ hr hkind linkId l' hl' => ?_) h
  · rw [hnew linkId l hl]
    exact ⟨rfl, rfl, rfl⟩
  · obtain ⟨l, hl, hvisit⟩ := replayKind_links (fun id l hl => (hr id l hl).sound) hkind hl'
    refine ⟨?_, ?_, hvisit.sound⟩
    · rw [hvisit.status, (hr linkId l hl).status, linkStatusAfter_snoc]
    · rw [hvisit.lastDown, (hr linkId l hl).lastDown, lastDownAfter_snoc]

/-- What the verifier keeps is what the steps say. -/
structure History (steps : List SimulationStep) (r : Replay) : Prop where
  flight : ∀ id, (r.inFlightPackets.lookup id).isSome = inFlightAfter steps id
  nodes : ∀ nodeId n, r.nodes.lookup nodeId = some n → NodeHistory steps nodeId n
  links : ∀ linkId l, r.links.lookup linkId = some l → LinkHistory steps linkId l

theorem replay_history (hnodes : ∀ id n, v.nodes.lookup id = some n → n = .new id)
    (hlinks : ∀ id l, v.links.lookup id = some l → l = {}) (h : (v.replay v.start steps).Within P r) : History steps r :=
  ⟨fun _ => flight_replay h, node_history hnodes h, link_history hlinks h⟩

theorem replay_snoc_history (hnodes : ∀ id n, v.nodes.lookup id = some n → n = .new id)
    (hlinks : ∀ id l, v.links.lookup id = some l → l = {}) {step : SimulationStep}
    (h : (v.replay v.start (steps ++ [step])).Within P r') : ∃ r₀ r, (v.replay v.start steps).Within P r₀ ∧
      r.inFlightPackets = r₀.inFlightPackets ∧ UsagesUpdated r₀.nodes r.nodes ∧ History steps r ∧
      (v.replayKind r step.relativeTime step.kind).Within P r' := by
  obtain ⟨r₀, h₀, hlast⟩ := Tracked.within_fold_append.1 h
  obtain ⟨nodes, update, hupdated, hkind⟩ := replayStep_within (Tracked.within_fold_singleton.1 hlast)
  have hhistory := replay_history hnodes hlinks h₀
  have hnodes' : ∀ nodeId n, nodes.lookup nodeId = some n → NodeHistory steps nodeId n := by
    intro nodeId n hn
    obtain ⟨m, usage, hm, rfl⟩ := hupdated.origin hn
    exact (hhistory.nodes nodeId m hm).usage usage
  exact ⟨r₀, { r₀ with nodes, lastStepTime := step.relativeTime, lastBufferUsageUpdate := update }, h₀, rfl, hupdated,
    ⟨hhistory.flight, hnodes', hhistory.links⟩, hkind⟩

end SimulationVerifier

end QuicWorkbench
