import QuicWorkbench.Proofs.Conserved

/-!
# What is counted as out of order

Packets are numbered in the order in which they are created, whichever host creates them. A node counts a packet that
it receives as out of order if its number is below the highest one that it has received before: those are the packets
that come behind one with a higher number (`overtaken`).
-/

namespace QuicWorkbench

/-- The number and the size of the packet that the step brings off a link. -/
def SimulationStepKind.reception (inFlight : Uuid → Bool) : SimulationStepKind → Option (Nat × Nat)
  | .packetInNode s => if inFlight s.packetId then some (s.packetNumber, s.packetSizeBytes) else none
  | _ => none

/-- The packet that the node receives in the step, going by the steps before it. -/
def receptionAt (before : List SimulationStep) (kind : SimulationStepKind) (nodeId : String) : Option (Nat × Nat) :=
  if kind.nodeId = some nodeId then kind.reception (inFlightAfter before) else none

/-- The numbers and sizes of the packets that the node received, oldest first. -/
def receptionsAfter (steps : List SimulationStep) (nodeId : String) : List (Nat × Nat) :=
  foldAlong (fun before received step => received ++ (receptionAt before step.kind nodeId).toList) [] steps

theorem receptionsAfter_snoc (steps : List SimulationStep) (step : SimulationStep) (nodeId : String) :
    receptionsAfter (steps ++ [step]) nodeId =
      receptionsAfter steps nodeId ++ (receptionAt steps step.kind nodeId).toList := foldAlong_snoc

/-- The packets that come behind one with a higher number. -/
def overtaken (received : List (Nat × Nat)) : List (Nat × Nat) :=
  foldAlong (fun before late x => if before.any (x.1 < ·.1) then late ++ [x] else late) [] received

theorem overtaken_snoc (received : List (Nat × Nat)) (x : Nat × Nat) :
    overtaken (received ++ [x]) = if received.any (x.1 < ·.1) then overtaken received ++ [x] else overtaken received :=
  foldAlong_snoc

/-- Packets in the order of their numbers do not overtake each other. -/
theorem overtaken_eq_nil {received : List (Nat × Nat)} (h : received.Pairwise fun x y => x.1 ≤ y.1) : overtaken received = [] := by
  induction received using List.reverseRecOn with
  | nil => rfl
  | append_singleton received x ih =>
    rw [List.pairwise_append] at h
    have hnone : received.any (x.1 < ·.1) = false := by
      refine List.any_eq_false.2 fun y hy => ?_
      have hle := h.2.2 y hy x (List.mem_singleton_self x)
      simpa using hle
    rw [overtaken_snoc, hnone, if_neg Bool.false_ne_true]
    exact ih h.1

def PacketStats.ofSizes (sizes : List Nat) : PacketStats := { packets := sizes.length, bytes := sizes.sum }

theorem PacketStats.ofSizes_snoc (sizes : List Nat) (size : Nat) : ofSizes (sizes ++ [size]) = (ofSizes sizes).trackOne size := by
  simp [ofSizes, trackOne]

/-- What the node keeps of the packets that it received. -/
structure ReplayedNode.Received (n : ReplayedNode) (received : List (Nat × Nat)) : Prop where
  highest : ∀ number, number < n.highestReceived ↔ received.any (number < ·.1)
  reordered : n.reorderedPacketsReceived = .ofSizes ((overtaken received).map Prod.snd)

namespace ReplayedNode
variable {n n' : ReplayedNode} {received : List (Nat × Nat)} {x : Nat × Nat} {inFlight : Uuid → Bool} {now : Nat}
  {P : NonFatalError → Prop} {kind : SimulationStepKind}

/-- What the handling of a step makes of what the node keeps of the packets that it received. -/
inductive Reordering (n n' : ReplayedNode) : Option (Nat × Nat) → Prop
  | none (hhighest : n'.highestReceived = n.highestReceived)
      (hreordered : n'.reorderedPacketsReceived = n.reorderedPacketsReceived) : Reordering n n' none
  | some (x : Nat × Nat) (hhighest : n'.highestReceived = max n.highestReceived x.1)
      (hreordered : n'.reorderedPacketsReceived =
        if x.1 < n.highestReceived then n.reorderedPacketsReceived.trackOne x.2 else n.reorderedPacketsReceived) :
      Reordering n n' (some x)

theorem Handled.reordering (h : Handled P inFlight now n n' kind) : Reordering n n' (kind.reception inFlight) := by
  cases h with
  | received s hflight h =>
    rw [SimulationStepKind.reception, if_pos hflight]
    rw [packetReceived_within_iff] at h
    split_ifs at h
    · obtain ⟨-, rfl⟩ := h
      exact .some _ rfl rfl
    · obtain ⟨-, -, rfl⟩ := addPacketToBuffer_within_iff.1 h
      exact .some _ rfl rfl
  | created s hflight h =>
    rw [SimulationStepKind.reception, if_neg (by simp [hflight])]
    obtain ⟨-, -, rfl⟩ := addPacketToBuffer_within_iff.1 h
    exact .none rfl rfl
  | duplicated s h =>
    obtain ⟨-, -, rfl⟩ := addPacketToBuffer_within_iff.1 h
    exact .none rfl rfl
  | dropped s h =>
    obtain ⟨p, -, -, rfl⟩ := packetDropped_within_iff.1 h
    cases s.reason <;> exact .none rfl rfl
  | sent s p h =>
    obtain ⟨-, -, -, -, rfl⟩ := packetSent_within_iff.1 h
    exact .none rfl rfl
  | delivered s h =>
    obtain ⟨p, -, -, rfl⟩ := packetDeliveredToAppLayer_within_iff.1 h
    exact .none rfl rfl
  | delayed s h =>
    obtain ⟨p, -, rfl⟩ := packetHasExtraDelay_within_iff.1 h
    exact .none rfl rfl
  | marked s h => exact h ▸ .none rfl rfl
  | event e payload he h =>
    obtain ⟨lastDown, heq⟩ := n.handleEvent_eq payload now
    rw [h, heq]
    exact .none rfl rfl

theorem Received.step (h : n.Received received) {reception : Option (Nat × Nat)} (hreordering : Reordering n n' reception) :
    n'.Received (received ++ reception.toList) := by
  cases hreordering with
  | none hhighest hreordered =>
    rw [Option.toList_none, List.append_nil]
    exact ⟨fun number => by rw [hhighest, h.highest], hreordered.trans h.reordered⟩
  | some x hhighest hreordered =>
    rw [Option.toList_some]
    constructor
    · intro number
      rw [hhighest, lt_max_iff, h.highest, List.any_append, Bool.or_eq_true]
      simp
    · rw [hreordered, overtaken_snoc, h.reordered]
      by_cases hlate : x.1 < n.highestReceived
      · rw [if_pos hlate, if_pos ((h.highest x.1).1 hlate), List.map_append, List.map_singleton, PacketStats.ofSizes_snoc]
      · rw [if_neg hlate, if_neg fun hany => hlate ((h.highest x.1).2 hany)]

end ReplayedNode

namespace SimulationVerifier
variable {v : SimulationVerifier} {r : Replay} {P : NonFatalError → Prop} {steps : List SimulationStep}

theorem node_received (hnew : ∀ id n, v.nodes.lookup id = some n → n = .new id) (h : (v.replay v.start steps).Within P r) :
    ∀ nodeId n, r.nodes.lookup nodeId = some n → n.Received (receptionsAfter steps nodeId) := by
  refine replay_induction (I := fun steps r => ∀ nodeId n, r.nodes.lookup nodeId = some n →
    n.Received (receptionsAfter steps nodeId)) (fun nodeId n hn => ?_)
    (fun steps r nodes time update hnodes hr nodeId n hn => ?_)
    (fun steps step r r' hflight hr hkind nodeId n' hn' => ?_) h
  · rw [hnew nodeId n hn]
    exact ⟨by simp [ReplayedNode.new, receptionsAfter], rfl⟩
  · obtain ⟨m, usage, hm, rfl⟩ := hnodes.origin hn
    exact ⟨(hr nodeId m hm).highest, (hr nodeId m hm).reordered⟩
  · rw [receptionsAfter_snoc, receptionAt]
    have hother : step.kind.nodeId ≠ some nodeId → r.nodes.lookup nodeId = some n' →
        n'.Received (receptionsAfter steps nodeId ++ (if step.kind.nodeId = some nodeId then
          step.kind.reception (inFlightAfter steps) else none).toList) := by
      intro hid hn
      rw [if_neg hid, Option.toList_none, List.append_nil]
      exact hr nodeId n' hn
    rcases replayKind_handles hkind with ⟨hid, hnodes⟩ | ⟨visited, n, n'', hid, hn, hnodes, hhandled⟩
    · exact hother (by simp [hid]) (hnodes ▸ hn')
    · rw [hnodes] at hn'
      by_cases heq : nodeId = visited
      · subst heq
        rw [AList.lookup_insert] at hn'
        obtain rfl := Option.some.inj hn'
        rw [if_pos hid, ← funext hflight]
        exact (hr nodeId n hn).step hhandled.reordering
      · rw [AList.lookup_insert_ne heq] at hn'
        exact hother (by rw [hid]; exact fun hsome => heq (Option.some.inj hsome).symm) hn'

theorem replay_isSome_iff (h : (v.replay v.start steps).Within P r) (nodeId : String) :
    (r.nodes.lookup nodeId).isSome ↔ (v.nodes.lookup nodeId).isSome := by
  refine replay_induction (I := fun _ r => (r.nodes.lookup nodeId).isSome ↔ (v.nodes.lookup nodeId).isSome) Iff.rfl
    (fun steps r nodes time update hnodes hr => ?_) (fun steps step r r' hflight hr hkind => ?_) h
  · rw [← hr]
    rcases hnodes nodeId with ⟨hold, hnew⟩ | ⟨n, usage, hold, hnew⟩ <;> simp [hold, hnew]
  · exact ((replayKind_visits hkind).isSome_iff nodeId).trans hr

/-- What is reported as received out of order is what comes behind a packet with a higher number. -/
theorem receivedOutOfOrder_of_verify {order : List String} {spec : NetworkSpec} {verified : VerifiedSimulation}
    (hnew : SimulationVerifier.new order steps spec = .ok v) (hverify : v.verify = some (.ok verified)) {nodeId : String}
    (hid : nodeId ∈ spec.nodes.map NetworkNodeSpec.id) : ∃ stats, verified.stats.statsByNode.lookup nodeId = some stats ∧
      stats.receivedOutOfOrder = .ofSizes ((overtaken (receptionsAfter v.steps nodeId)).map Prod.snd) := by
  have htables := new_tables hnew
  obtain ⟨r, hr, hstats⟩ := within_of_verify hverify
  obtain ⟨r₀, h₀, hfinish⟩ := Tracked.within_bind_iff.1 hr
  obtain ⟨nodes, hnodes, rfl⟩ := finish_within hfinish
  have hsome : (r₀.nodes.lookup nodeId).isSome := by
    rw [replay_isSome_iff h₀, (htables.nodes nodeId (.new nodeId)).2 ⟨hid, rfl⟩]
    rfl
  obtain ⟨n, hn⟩ := Option.isSome_iff_exists.1 hsome
  rcases hnodes nodeId with ⟨hnone, -⟩ | ⟨n', usage, hn', hlookup⟩
  · simp [hn] at hnone
  · refine ⟨ReplayedNode.stats { n' with maxBufferUsage := usage }, ?_, ?_⟩
    · rw [hstats, lookup_statsByNode, hlookup]
      rfl
    · exact (node_received htables.new_node h₀ nodeId n' hn').reordered

end SimulationVerifier

end QuicWorkbench
