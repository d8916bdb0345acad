import QuicWorkbench.Proofs.Handlers

/-!
# What the replay does to its nodes

Every operation of a replayed node with what it ensures: the errors it may track, and when; what
becomes of the node's packets; and that status, id and ECN counter stay (`Updates`). `NodesAlong` lifts
this to the map of nodes, along the steps replayed so far.
-/

namespace QuicWorkbench

namespace ReplayedNode

/-- `n'` is `n` with these packets, its counters aside. -/
structure Updates (n n' : ReplayedNode) (packets : HashMap Uuid ReplayedPacket) : Prop where
  status : n'.status = n.status
  id : n'.id = n.id
  ecnPackets : n'.ecnPackets = n.ecnPackets
  packets : n'.packets = packets

variable {n : ReplayedNode} {id : Uuid} {size now : Nat}

theorem addPacketToBuffer_ensures (n : ReplayedNode) (id : Uuid) (size now : Nat) :
    (n.addPacketToBuffer id size now).Ensures (fun e => e = .nodeDownPacketReceive n.id id)
      fun n' => n.packets.lookup id = none ∧
        n.Updates n' (n.packets.insert id { sizeBytes := size, extraDelay := 0, arrivedAt := now }) := by
  unfold addPacketToBuffer
  refine .bind (Tracked.ensures_trackIf fun _ => rfl) fun _ _ => ?_
  split_ifs with hsome
  · exact Tracked.ensures_stop
  · exact Tracked.ensures_pure ⟨by simpa using hsome, ⟨rfl, rfl, rfl, rfl⟩⟩

theorem removePacketFromBuffer_ensures (n : ReplayedNode) (id : Uuid) :
    (n.removePacketFromBuffer id).Ensures (fun _ => False)
      fun x => n.packets.lookup id = some x.1 ∧ n.Updates x.2 (n.packets.erase id) ∧
        x.2.lastBufferClear = n.lastBufferClear := by
  unfold removePacketFromBuffer
  refine .bind Tracked.ensures_ofOption fun p hp => ?_
  refine .bind Tracked.ensures_ofOption fun usage _ => ?_
  exact Tracked.ensures_pure ⟨hp, ⟨rfl, rfl, rfl, rfl⟩, rfl⟩

theorem packetReceived_ensures (n : ReplayedNode) (s : PacketInNode) (now : Nat) :
    (n.packetReceived s now).Ensures (fun e => e = .nodeDownPacketReceive n.id s.packetId ∨
        n.status = .up ∧ s.droppedOnArrival ∧ e = .nodeUpPacketDroppedOnArrival n.id s.packetId)
      fun n' => if s.droppedOnArrival then n.Updates n' n.packets else n.packets.lookup s.packetId = none ∧
        n.Updates n' (n.packets.insert s.packetId { sizeBytes := s.packetSizeBytes, extraDelay := 0, arrivedAt := now }) := by
  unfold packetReceived
  by_cases hdropped : s.droppedOnArrival
  · simp only [hdropped, ↓reduceIte]
    refine .bind (Tracked.ensures_trackIf fun hup => .inr ⟨of_decide_eq_true hup, trivial, rfl⟩) fun _ _ => ?_
    exact Tracked.ensures_pure ⟨rfl, rfl, rfl, rfl⟩
  · simp only [hdropped, Bool.false_eq_true, ↓reduceIte]
    refine (addPacketToBuffer_ensures (n.trackReceived s) s.packetId s.packetSizeBytes now).mono
      (fun e he => .inl he) fun n' hn' => ⟨hn'.1, ?_⟩
    exact ⟨hn'.2.status, hn'.2.id, hn'.2.ecnPackets, hn'.2.packets⟩

theorem packetDuplicated_ensures (n : ReplayedNode) (s : GenericPacketEvent) (now : Nat) :
    (n.packetDuplicated s now).Ensures (fun e => e = .nodeDownPacketReceive n.id s.packetId)
      fun n' => n.packets.lookup s.packetId = none ∧
        n.Updates n' (n.packets.insert s.packetId { sizeBytes := s.packetSizeBytes, extraDelay := 0, arrivedAt := now }) := by
  refine (addPacketToBuffer_ensures { n with
    duplicatedPackets := n.duplicatedPackets.trackOne s.packetSizeBytes } s.packetId s.packetSizeBytes now).mono
    (fun e he => he) fun n' hn' => ⟨hn'.1, ?_⟩
  exact ⟨hn'.2.status, hn'.2.id, hn'.2.ecnPackets, hn'.2.packets⟩

theorem packetSent_ensures (n : ReplayedNode) (id : Uuid) :
    (n.packetSent id).Ensures (fun e => n.status = .down ∧ e = .nodeDownPacketSend n.id id ∨
        e = .packetSurvivedBufferCorruption n.id id)
      fun x => n.packets.lookup id = some x.1 ∧ n.Updates x.2 (n.packets.erase id) := by
  unfold packetSent
  refine .bind (Tracked.ensures_trackIf fun hdown => .inl ⟨of_decide_eq_true hdown, rfl⟩) fun _ _ => ?_
  refine ((removePacketFromBuffer_ensures n id).mono (fun e he => he.elim) fun x hx => hx).bind ?_
  rintro ⟨p, n'⟩ ⟨hp, hn', -⟩
  refine .bind (Tracked.ensures_trackIf fun _ => .inr (by rw [hn'.id])) fun _ _ => ?_
  exact Tracked.ensures_pure ⟨hp, ⟨hn'.status, hn'.id, hn'.ecnPackets, hn'.packets⟩⟩

theorem packetDeliveredToAppLayer_ensures (n : ReplayedNode) (id : Uuid) :
    (n.packetDeliveredToAppLayer id).Ensures (fun _ => False)
      fun n' => (n.packets.lookup id).isSome ∧ n.Updates n' (n.packets.erase id) := by
  unfold packetDeliveredToAppLayer
  refine (removePacketFromBuffer_ensures n id).bind ?_
  rintro ⟨p, n'⟩ ⟨hp, hn', -⟩
  exact Tracked.ensures_pure ⟨Option.isSome_iff_exists.2 ⟨p, hp⟩, hn'⟩

theorem packetDropped_ensures (n : ReplayedNode) (s : PacketDropped) :
    (n.packetDropped s).Ensures (fun _ => False)
      fun n' => (n.packets.lookup s.packetId).isSome ∧ n.Updates n' (n.packets.erase s.packetId) := by
  unfold packetDropped
  refine (removePacketFromBuffer_ensures n s.packetId).bind ?_
  rintro ⟨p, n'⟩ ⟨hp, hn', -⟩
  have hp : (n.packets.lookup s.packetId).isSome := Option.isSome_iff_exists.2 ⟨p, hp⟩
  dsimp only
  split
  all_goals exact Tracked.ensures_pure ⟨hp, ⟨hn'.status, hn'.id, hn'.ecnPackets, hn'.packets⟩⟩

theorem packetHasExtraDelay_ensures (n : ReplayedNode) (id : Uuid) (delay : Nat) :
    (n.packetHasExtraDelay id delay).Ensures (fun _ => False)
      fun n' => ∃ p, n.packets.lookup id = some p ∧
        n.Updates n' (n.packets.insert id { p with extraDelay := delay }) := by
  unfold packetHasExtraDelay
  refine .bind Tracked.ensures_ofOption fun p hp => ?_
  exact Tracked.ensures_pure ⟨p, hp, ⟨rfl, rfl, rfl, rfl⟩⟩

end ReplayedNode

/-! ### The nodes along a replay -/

/-- The status that the step gives the node. -/
def SimulationStepKind.nodeStatus (nodeId : String) : SimulationStepKind → Option UpdateNodeStatus
  | .networkEvent e => e.node.bind fun payload => if payload.nodeId = nodeId then payload.status else none
  | _ => none

/-- The status of the node after the steps. -/
def nodeStatusAfter (steps : List SimulationStep) (nodeId : String) : UpdateNodeStatus :=
  steps.foldl (fun status step => (step.kind.nodeStatus nodeId).getD status) .up

theorem nodeStatusAfter_snoc (steps : List SimulationStep) (step : SimulationStep) (nodeId : String) :
    nodeStatusAfter (steps ++ [step]) nodeId = (step.kind.nodeStatus nodeId).getD (nodeStatusAfter steps nodeId) := by
  simp [nodeStatusAfter]

/-- The size of the packet that the step marks at the node. -/
def SimulationStepKind.congestion (nodeId : String) : SimulationStepKind → Option Nat
  | .packetCongestionEvent s => if s.nodeId = nodeId then some s.packetSizeBytes else none
  | _ => none

/-- What a step makes of the node with the id. -/
structure NodeStep (kind : SimulationStepKind) (nodeId : String) (n n' : ReplayedNode) : Prop where
  id : n'.id = n.id
  status : n'.status = (kind.nodeStatus nodeId).getD n.status
  ecnPackets : n'.ecnPackets = ((kind.congestion nodeId).map n.ecnPackets.trackOne).getD n.ecnPackets

theorem ReplayedNode.Updates.nodeStep {n n' : ReplayedNode} {packets : HashMap Uuid ReplayedPacket}
    {kind : SimulationStepKind} {nodeId : String} (h : n.Updates n' packets) (hstatus : kind.nodeStatus nodeId = none)
    (hcongestion : kind.congestion nodeId = none) : NodeStep kind nodeId n n' :=
  ⟨h.id, by rw [hstatus]; exact h.status, by rw [hcongestion]; exact h.ecnPackets⟩

/-- Every node comes from a node with the same id. -/
def NodesStep (kind : SimulationStepKind) (nodes nodes' : HashMap String ReplayedNode) : Prop :=
  ∀ nodeId n', nodes'.lookup nodeId = some n' → ∃ n, nodes.lookup nodeId = some n ∧ NodeStep kind nodeId n n'

theorem nodesStep_insert {kind : SimulationStepKind} {nodes : HashMap String ReplayedNode} {nodeId : String}
    {n n' : ReplayedNode} (hn : nodes.lookup nodeId = some n) (h : NodeStep kind nodeId n n')
    (hother : ∀ id, id ≠ nodeId → kind.nodeStatus id = none ∧ kind.congestion id = none) :
    NodesStep kind nodes (nodes.insert nodeId n') := by
  intro id m hm
  by_cases heq : id = nodeId
  · subst heq
    obtain rfl : n' = m := by simpa [AList.lookup_insert] using hm
    exact ⟨n, hn, h⟩
  · rw [AList.lookup_insert_ne heq] at hm
    obtain ⟨hstatus, hcongestion⟩ := hother id heq
    exact ⟨m, hm, rfl, by rw [hstatus]; rfl, by rw [hcongestion]; rfl⟩

theorem nodesStep_refl {kind : SimulationStepKind} (nodes : HashMap String ReplayedNode)
    (h : ∀ id, kind.nodeStatus id = none ∧ kind.congestion id = none) : NodesStep kind nodes nodes :=
  fun id m hm => ⟨m, hm, rfl, by rw [(h id).1]; rfl, by rw [(h id).2]; rfl⟩

/-- A send from a node that is down is only reported at such a send, and one over more than the bandwidth only at a send. -/
structure AtSend (r : Replay) (kind : SimulationStepKind) (e : NonFatalError) : Prop where
  down : ∀ nodeId id, e = .nodeDownPacketSend nodeId id → ∃ s n, kind = .packetInTransit s ∧
    r.nodes.lookup s.nodeId = some n ∧ n.status = .down
  exceeds : ∀ nodeId linkId id max observed, e = .linkBandwidthExceeded nodeId linkId id max observed →
    ∃ s, kind = .packetInTransit s

theorem AtSend.of_other {r : Replay} {kind : SimulationStepKind} {e : NonFatalError}
    (hdown : ∀ nodeId id, e ≠ .nodeDownPacketSend nodeId id)
    (hexceeds : ∀ nodeId linkId id max observed, e ≠ .linkBandwidthExceeded nodeId linkId id max observed) :
    AtSend r kind e :=
  ⟨fun nodeId id h => absurd h (hdown nodeId id), fun nodeId linkId id max observed h =>
    absurd h (hexceeds nodeId linkId id max observed)⟩

namespace SimulationVerifier

theorem packetInNode_nodes (v : SimulationVerifier) (r : Replay) (now : Nat) (s : PacketInNode) :
    (v.packetInNode r now s).Ensures (AtSend r (.packetInNode s))
      fun r' => NodesStep (.packetInNode s) r.nodes r'.nodes := by
  have hkind : ∀ id, (SimulationStepKind.packetInNode s).nodeStatus id = none ∧
      (SimulationStepKind.packetInNode s).congestion id = none := fun id => ⟨rfl, rfl⟩
  unfold packetInNode
  split
  · rename_i inFlight _
    refine .bind Tracked.ensures_ofOption fun metadata _ => ?_
    refine .bind (Tracked.ensures_trackIf fun _ => .of_other (by simp) (by simp)) fun _ _ => ?_
    refine .bind Tracked.ensures_ofOption fun timeInFlight _ => ?_
    refine .bind (Tracked.ensures_trackIf fun _ => .of_other (by simp) (by simp)) fun _ _ => ?_
    refine .bind Tracked.ensures_ofOption fun link _ => ?_
    have hreceive : (do
        let node ← tryFatal (r.nodes.lookup s.nodeId) (.missingNode s.nodeId)
        let node ← node.packetReceived s now
        pure { r with
          inFlightPackets := r.inFlightPackets.erase s.packetId
          nodes := r.nodes.insert s.nodeId node } : Replaying Replay).Ensures (AtSend r (.packetInNode s))
        fun r' => NodesStep (.packetInNode s) r.nodes r'.nodes := by
      refine .bind Tracked.ensures_ofOption fun n hn => ?_
      refine .bind ((n.packetReceived_ensures s now).mono ?_ fun _ h => h) fun n' hn' => ?_
      · rintro e (rfl | ⟨-, -, rfl⟩) <;> exact .of_other (by simp) (by simp)
      · refine Tracked.ensures_pure (nodesStep_insert hn ?_ fun id _ => hkind id)
        split_ifs at hn'
        · exact hn'.nodeStep rfl rfl
        · exact hn'.2.nodeStep rfl rfl
    split
    · refine .bind (Tracked.ensures_trackIf fun _ => .of_other (by simp) (by simp)) fun _ _ => ?_
      exact hreceive
    · exact hreceive
  · refine .bind (Tracked.ensures_trackIf fun _ => .of_other (by simp) (by simp)) fun _ _ => ?_
    refine .bind Tracked.ensures_ofOption fun n hn => ?_
    refine .bind ((n.addPacketToBuffer_ensures s.packetId s.packetSizeBytes now).mono ?_ fun _ h => h) fun n' hn' => ?_
    · rintro e rfl
      exact .of_other (by simp) (by simp)
    · exact Tracked.ensures_pure (nodesStep_insert hn (hn'.2.nodeStep rfl rfl) fun id _ => hkind id)

theorem packetDuplicated_nodes (r : Replay) (now : Nat) (s : GenericPacketEvent) :
    (packetDuplicated r now s).Ensures (AtSend r (.packetDuplicated s))
      fun r' => NodesStep (.packetDuplicated s) r.nodes r'.nodes := by
  unfold packetDuplicated
  refine .bind Tracked.ensures_ofOption fun n hn => ?_
  refine .bind ((n.packetDuplicated_ensures s now).mono ?_ fun _ h => h) fun n' hn' => ?_
  · rintro e rfl
    exact .of_other (by simp) (by simp)
  · exact Tracked.ensures_pure (nodesStep_insert hn (hn'.2.nodeStep rfl rfl) fun id _ => ⟨rfl, rfl⟩)

theorem packetDropped_nodes (r : Replay) (s : PacketDropped) :
    (packetDropped r s).Ensures (AtSend r (.packetDropped s))
      fun r' => NodesStep (.packetDropped s) r.nodes r'.nodes := by
  unfold packetDropped
  refine .bind Tracked.ensures_ofOption fun n hn => ?_
  refine .bind ((n.packetDropped_ensures s).mono (fun e he => he.elim) fun _ h => h) fun n' hn' => ?_
  exact Tracked.ensures_pure (nodesStep_insert hn (hn'.2.nodeStep rfl rfl) fun id _ => ⟨rfl, rfl⟩)

theorem packetLostInTransit_nodes (r : Replay) (s : PacketLostInTransit) :
    (packetLostInTransit r s).Ensures (AtSend r (.packetLostInTransit s))
      fun r' => NodesStep (.packetLostInTransit s) r.nodes r'.nodes := by
  unfold packetLostInTransit
  split
  · exact Tracked.ensures_pure (nodesStep_refl _ fun id => ⟨rfl, rfl⟩)
  · refine .bind (Tracked.ensures_track (.of_other (by simp) (by simp))) fun _ _ => ?_
    exact Tracked.ensures_pure (nodesStep_refl _ fun id => ⟨rfl, rfl⟩)

theorem packetInTransit_nodes (v : SimulationVerifier) (r : Replay) (now : Nat) (s : PacketInTransit) :
    (v.packetInTransit r now s).Ensures (AtSend r (.packetInTransit s))
      fun r' => NodesStep (.packetInTransit s) r.nodes r'.nodes := by
  unfold packetInTransit
  refine .bind Tracked.ensures_ofOption fun n hn => ?_
  refine .bind ((n.packetSent_ensures s.packetId).mono ?_ fun _ h => h) ?_
  · rintro e (⟨hdown, rfl⟩ | rfl)
    · exact ⟨fun nodeId id _ => ⟨s, n, rfl, hn, hdown⟩, by simp⟩
    · exact .of_other (by simp) (by simp)
  rintro ⟨packet, n'⟩ ⟨-, hn'⟩
  refine .bind Tracked.ensures_ofOption fun metadata _ => ?_
  refine .bind (Tracked.ensures_trackIf fun _ => .of_other (by simp) (by simp)) fun _ _ => ?_
  refine .bind Tracked.ensures_ofOption fun link _ => ?_
  refine .bind (Tracked.ensures_trackIf fun _ => .of_other (by simp) (by simp)) fun _ _ => ?_
  refine .bind Tracked.ensures_ofOption fun sent _ => ?_
  refine .bind (Tracked.ensures_trackIf fun _ => ⟨by simp, fun _ _ _ _ _ _ => ⟨s, rfl⟩⟩) fun _ _ => ?_
  exact Tracked.ensures_pure (nodesStep_insert hn (hn'.nodeStep rfl rfl) fun id _ => ⟨rfl, rfl⟩)

theorem packetCongestionEvent_nodes (r : Replay) (s : GenericPacketEvent) :
    (packetCongestionEvent r s).Ensures (AtSend r (.packetCongestionEvent s))
      fun r' => NodesStep (.packetCongestionEvent s) r.nodes r'.nodes := by
  unfold packetCongestionEvent
  refine .bind Tracked.ensures_ofOption fun n hn => ?_
  refine Tracked.ensures_pure (nodesStep_insert hn ⟨rfl, rfl, ?_⟩ fun id hid => ⟨rfl, ?_⟩)
  · simp [SimulationStepKind.congestion, ReplayedNode.packetEcn]
  · simp [SimulationStepKind.congestion, Ne.symm hid]

theorem packetDeliveredToApplication_nodes (r : Replay) (s : GenericPacketEvent) :
    (packetDeliveredToApplication r s).Ensures (AtSend r (.packetDeliveredToApplication s))
      fun r' => NodesStep (.packetDeliveredToApplication s) r.nodes r'.nodes := by
  unfold packetDeliveredToApplication
  refine .bind Tracked.ensures_ofOption fun n hn => ?_
  refine .bind ((n.packetDeliveredToAppLayer_ensures s.packetId).mono (fun e he => he.elim) fun _ h => h) fun n' hn' => ?_
  exact Tracked.ensures_pure (nodesStep_insert hn (hn'.2.nodeStep rfl rfl) fun id _ => ⟨rfl, rfl⟩)

theorem packetExtraDelay_nodes (r : Replay) (s : PacketHasExtraDelay) :
    (packetExtraDelay r s).Ensures (AtSend r (.packetExtraDelay s))
      fun r' => NodesStep (.packetExtraDelay s) r.nodes r'.nodes := by
  unfold packetExtraDelay
  refine .bind Tracked.ensures_ofOption fun n hn => ?_
  refine .bind ((n.packetHasExtraDelay_ensures s.packetId s.extraDelay).mono (fun e he => he.elim) fun _ h => h) ?_
  rintro n' ⟨p, -, hn'⟩
  exact Tracked.ensures_pure (nodesStep_insert hn (hn'.nodeStep rfl rfl) fun id _ => ⟨rfl, rfl⟩)

theorem networkEvent_nodes (r : Replay) (now : Nat) (e : NetworkEventStep) :
    (networkEvent r now e).Ensures (AtSend r (.networkEvent e))
      fun r' => NodesStep (.networkEvent e) r.nodes r'.nodes := by
  unfold networkEvent
  refine .bind (Q := fun r' => r'.nodes = r.nodes) ?_ fun r₁ hr₁ => ?_
  · split
    · rename_i payload _
      unfold linkEvent
      split
      · exact Tracked.ensures_pure rfl
      · refine .bind Tracked.ensures_ofOption fun link _ => ?_
        exact Tracked.ensures_pure rfl
    · exact Tracked.ensures_pure rfl
  split
  · rename_i payload hnode
    unfold nodeEvent
    refine .bind Tracked.ensures_ofOption fun n hn => ?_
    rw [hr₁] at hn ⊢
    obtain ⟨lastDown, heq⟩ := n.handleEvent_eq payload now
    rw [heq]
    refine Tracked.ensures_pure (nodesStep_insert hn ⟨rfl, ?_, rfl⟩ fun id hid => ⟨?_, rfl⟩)
    · simp [SimulationStepKind.nodeStatus, hnode]
    · simp [SimulationStepKind.nodeStatus, hnode, Ne.symm hid]
  · rename_i hnode
    rw [← hr₁]
    exact Tracked.ensures_pure (nodesStep_refl _ fun id => ⟨by simp [SimulationStepKind.nodeStatus, hnode], rfl⟩)

theorem replayKind_nodes (v : SimulationVerifier) (r : Replay) (now : Nat) (kind : SimulationStepKind) :
    (v.replayKind r now kind).Ensures (AtSend r kind) fun r' => NodesStep kind r.nodes r'.nodes := by
  cases kind with
  | packetInNode s => exact packetInNode_nodes v r now s
  | packetDropped s => exact packetDropped_nodes r s
  | packetLostInTransit s => exact packetLostInTransit_nodes r s
  | packetDuplicated s => exact packetDuplicated_nodes r now s
  | packetExtraDelay s => exact packetExtraDelay_nodes r s
  | packetCongestionEvent s => exact packetCongestionEvent_nodes r s
  | packetInTransit s => exact packetInTransit_nodes v r now s
  | packetDeliveredToApplication s => exact packetDeliveredToApplication_nodes r s
  | networkEvent e => exact networkEvent_nodes r now e

/-- Only the highest buffer usages change. -/
def UsagesUpdated (nodes nodes' : HashMap String ReplayedNode) : Prop :=
  ∀ nodeId, (nodes.lookup nodeId = none ∧ nodes'.lookup nodeId = none) ∨
    ∃ n usage, nodes.lookup nodeId = some n ∧ nodes'.lookup nodeId = some { n with maxBufferUsage := usage }

theorem usagesUpdated_refl (nodes : HashMap String ReplayedNode) : UsagesUpdated nodes nodes := fun nodeId => by
  cases h : nodes.lookup nodeId with
  | none => exact .inl ⟨rfl, rfl⟩
  | some n => exact .inr ⟨n, n.maxBufferUsage, rfl, rfl⟩

theorem UsagesUpdated.origin {nodes nodes' : HashMap String ReplayedNode} (h : UsagesUpdated nodes nodes') {nodeId : String}
    {n' : ReplayedNode} (hn' : nodes'.lookup nodeId = some n') :
    ∃ n maxBufferUsage, nodes.lookup nodeId = some n ∧ n' = { n with maxBufferUsage } := by
  rcases h nodeId with ⟨-, hnone⟩ | ⟨n, usage, hn, hsome⟩
  · exact absurd (hnone.symm.trans hn') (by simp)
  · exact ⟨n, usage, hn, Option.some.inj (hn'.symm.trans hsome)⟩

theorem updateMaxBufferUsageLoop_ensures (v : SimulationVerifier) (order : List String)
    (nodes : HashMap String ReplayedNode) :
    (v.updateMaxBufferUsageLoop order nodes).Ensures
      (fun e => ∃ nodeId size usage, e = .nodeExceedsBufferSize nodeId size usage) (UsagesUpdated nodes) := by
  induction order generalizing nodes with
  | nil => exact Tracked.ensures_pure (usagesUpdated_refl nodes)
  | cons nodeId order ih =>
    rw [updateMaxBufferUsageLoop]
    split
    · exact ih nodes
    · rename_i n hn
      have hstep : UsagesUpdated nodes (nodes.insert nodeId n.updateMaxBufferUsage) := fun id => by
        by_cases heq : id = nodeId
        · subst heq
          exact .inr ⟨n, max n.bufferUsage n.maxBufferUsage, hn, AList.lookup_insert _⟩
        · rw [AList.lookup_insert_ne heq]
          exact usagesUpdated_refl nodes id
      refine .bind Tracked.ensures_ofOption fun metadata _ => ?_
      split_ifs
      · refine .bind (Tracked.ensures_track ⟨_, _, _, rfl⟩) fun _ _ => ?_
        exact Tracked.ensures_pure hstep
      · refine (ih _).mono (fun e he => he) fun nodes' hnodes' id => ?_
        rcases hnodes' id with ⟨h₁, h₂⟩ | ⟨m, usage, h₁, h₂⟩
        · rcases hstep id with ⟨h₃, -⟩ | ⟨m', usage', h₃, h₄⟩
          · exact .inl ⟨h₃, h₂⟩
          · rw [h₄] at h₁
            exact absurd h₁ (by simp)
        · rcases hstep id with ⟨-, h₄⟩ | ⟨m', usage', h₃, h₄⟩
          · rw [h₄] at h₁
            exact absurd h₁ (by simp)
          · rw [h₄] at h₁
            obtain rfl := Option.some.inj h₁
            exact .inr ⟨m', usage, h₃, h₂⟩

theorem updateMaxBufferUsage_ensures (v : SimulationVerifier) (r : Replay) :
    (v.updateMaxBufferUsage r).Ensures (fun e => ∃ nodeId size usage, e = .nodeExceedsBufferSize nodeId size usage)
      fun r' => ∃ nodes, UsagesUpdated r.nodes nodes ∧ r' = { r with nodes } := by
  unfold updateMaxBufferUsage
  refine .bind (updateMaxBufferUsageLoop_ensures v _ _) fun nodes hnodes => ?_
  exact Tracked.ensures_pure ⟨nodes, hnodes, rfl⟩

theorem finish_ensures (v : SimulationVerifier) (r : Replay) :
    (v.finish r).Ensures (fun e => ∃ nodeId size usage, e = .nodeExceedsBufferSize nodeId size usage)
      fun r' => ∃ nodes, UsagesUpdated r.nodes nodes ∧ r' = { r with nodes } := by
  unfold finish
  split_ifs
  · exact updateMaxBufferUsage_ensures v r
  · exact Tracked.ensures_pure ⟨r.nodes, usagesUpdated_refl r.nodes, rfl⟩

theorem advanceTime_ensures (v : SimulationVerifier) (r : Replay) (time : Nat) :
    (v.advanceTime r time).Ensures (fun e => ∃ nodeId size usage, e = .nodeExceedsBufferSize nodeId size usage)
      fun r' => ∃ nodes update, UsagesUpdated r.nodes nodes ∧
        r' = { r with nodes, lastStepTime := time, lastBufferUsageUpdate := update } := by
  unfold advanceTime
  split_ifs with htime
  · refine .bind (updateMaxBufferUsage_ensures v r) ?_
    rintro r₁ ⟨nodes, hnodes, rfl⟩
    exact Tracked.ensures_pure ⟨nodes, _, hnodes, rfl⟩
  · refine Tracked.ensures_pure ⟨r.nodes, r.lastBufferUsageUpdate, usagesUpdated_refl _, ?_⟩
    rw [show time = r.lastStepTime by simpa using htime]

theorem replayStep_within {v : SimulationVerifier} {r r' : Replay} {step : SimulationStep} {P : NonFatalError → Prop}
    (h : (v.replayStep r step).Within P r') : ∃ nodes update, UsagesUpdated r.nodes nodes ∧
      (v.replayKind { r with nodes, lastStepTime := step.relativeTime, lastBufferUsageUpdate := update }
        step.relativeTime step.kind).Within P r' := by
  unfold replayStep at h
  obtain ⟨r₁, hadvance, hkind⟩ := Tracked.within_bind_iff.1 h
  obtain ⟨nodes, update, hnodes, rfl⟩ := (advanceTime_ensures v r step.relativeTime).result r₁ hadvance.1
  exact ⟨nodes, update, hnodes, hkind⟩

theorem replayStep_nodes (v : SimulationVerifier) (r : Replay) (step : SimulationStep) :
    (v.replayStep r step).Ensures (AtSend r step.kind) fun r' => NodesStep step.kind r.nodes r'.nodes := by
  unfold replayStep
  refine .bind ((advanceTime_ensures v r step.relativeTime).mono ?_ fun _ h => h) ?_
  · rintro e ⟨nodeId, size, usage, rfl⟩
    exact .of_other (by simp) (by simp)
  rintro r₁ ⟨nodes, update, hnodes, rfl⟩
  have hback : ∀ id m, nodes.lookup id = some m → ∃ n, r.nodes.lookup id = some n ∧ m.id = n.id ∧
      m.status = n.status ∧ m.ecnPackets = n.ecnPackets := by
    intro id m hm
    rcases hnodes id with ⟨-, hnone⟩ | ⟨n, usage, hn, hm'⟩
    · simp [hnone] at hm
    · rw [hm'] at hm
      obtain rfl := Option.some.inj hm
      exact ⟨n, hn, rfl, rfl, rfl⟩
  refine (replayKind_nodes v _ step.relativeTime step.kind).mono ?_ ?_
  · intro e he
    refine ⟨fun nodeId id heq => ?_, he.exceeds⟩
    obtain ⟨s, m, hkind, hm, hdown⟩ := he.down nodeId id heq
    obtain ⟨n, hn, -, hstatus, -⟩ := hback _ m hm
    exact ⟨s, n, hkind, hn, hstatus ▸ hdown⟩
  · intro r' hr' id n' hn'
    obtain ⟨m, hm, hid, hstatus, hecn⟩ := hr' id n' hn'
    obtain ⟨n, hn, hid₁, hstatus₁, hecn₁⟩ := hback _ m hm
    exact ⟨n, hn, by rw [hid, hid₁], by rw [hstatus, hstatus₁], by rw [hecn, hecn₁]⟩

/-- The error is among those that `verify` returns. -/
def Reports (v : SimulationVerifier) (e : NonFatalError) : Prop :=
  match v.verify with
  | some (.ok verified) => e ∈ verified.nonFatalErrors
  | some (.error invalid) => e ∈ invalid.nonFatalErrors
  | none => False

instance (v : SimulationVerifier) (e : NonFatalError) : Decidable (v.Reports e) := by
  unfold Reports
  split <;> infer_instance

theorem mem_errors_of_reports {v : SimulationVerifier} {e : NonFatalError} (h : v.Reports e) : e ∈ v.run.errors := by
  unfold Reports verify at h
  cases hresult : v.run.result with
  | ok r => simpa [hresult] using h
  | error stop =>
    cases stop with
    | fatal _ => simpa [hresult] using h
    | panic => simp [hresult] at h

/-- The log is verified, and `P` holds of the outcome. -/
def verifies (spec : NetworkSpec) (order : List String) (steps : List SimulationStep) (P : VerifiedSimulation → Bool) :
    Bool :=
  match SimulationVerifier.new order steps spec with
  | .error _ => false
  | .ok v =>
    match v.verify with
    | some (.ok verified) => P verified
    | _ => false

theorem exists_verified (spec : NetworkSpec) (order : List String) (steps : List SimulationStep)
    (P : VerifiedSimulation → Bool) (h : verifies spec order steps P) : ∃ v verified,
      SimulationVerifier.new order steps spec = .ok v ∧ v.verify = some (.ok verified) ∧ P verified = true := by
  unfold verifies at h
  split at h
  · simp at h
  · rename_i v hnew
    split at h
    · rename_i verified hverify
      exact ⟨v, verified, hnew, hverify, h⟩
    · simp at h

/-- A verified log was replayed to its end, with the errors and the statistics that are reported. -/
theorem within_of_verify {v : SimulationVerifier} {verified : VerifiedSimulation} (h : v.verify = some (.ok verified)) :
    ∃ r, v.run.Within (· ∈ verified.nonFatalErrors) r ∧ verified.stats = simulationStats r := by
  unfold verify at h
  cases hresult : v.run.result with
  | ok r =>
    rw [hresult] at h
    obtain rfl := Except.ok.inj (Option.some.inj h)
    exact ⟨r, ⟨hresult, fun e he => he⟩, rfl⟩
  | error stop => cases stop <;> simp [hresult] at h

/-- The nodes after the steps: those of the verifier, with the statuses that the steps gave them. -/
structure NodesAlong (v : SimulationVerifier) (steps : List SimulationStep) (r : Replay) : Prop where
  new : ∀ id n, r.nodes.lookup id = some n → ∃ n₀, v.nodes.lookup id = some n₀
  status : ∀ id n, r.nodes.lookup id = some n → n.status = nodeStatusAfter steps id

/-- A send from a node that is down, at some step. -/
def DownSendAlong (steps : List SimulationStep) (e : NonFatalError) : Prop :=
  ∀ nodeId id, e = .nodeDownPacketSend nodeId id → ∃ pre step post s, steps = pre ++ step :: post ∧
    step.kind = .packetInTransit s ∧ nodeStatusAfter pre s.nodeId = .down

theorem nodesAlong_snoc {v : SimulationVerifier} {pre : List SimulationStep} {step : SimulationStep} {r r' : Replay}
    (h : v.NodesAlong pre r) (hstep : NodesStep step.kind r.nodes r'.nodes) : v.NodesAlong (pre ++ [step]) r' := by
  constructor
  · intro id n hn
    obtain ⟨n₀, hn₀, -⟩ := hstep id n hn
    exact h.new id n₀ hn₀
  · intro id n hn
    obtain ⟨n₀, hn₀, hstep⟩ := hstep id n hn
    rw [nodeStatusAfter_snoc, hstep.status, h.status id n₀ hn₀]

theorem run_ensures_downSend {v : SimulationVerifier} (hnew : ∀ id n, v.nodes.lookup id = some n → n.status = .up) :
    v.run.Ensures (DownSendAlong v.steps) fun _ => True := by
  unfold run
  have hstart : v.NodesAlong [] v.start := ⟨fun id n hn => ⟨n, hn⟩, hnew⟩
  have hreplay : (v.replay v.start v.steps).Ensures (DownSendAlong v.steps) (v.NodesAlong ([] ++ v.steps)) := by
    refine Tracked.Ensures.fold [] (fun pre step post r hsplit hr => ?_) hstart
    refine (v.replayStep_nodes r step).mono (fun e he nodeId id heq => ?_) fun r' hr' => nodesAlong_snoc hr hr'
    obtain ⟨s, n, hkind, hn, hdown⟩ := he.down nodeId id heq
    rw [List.nil_append] at hsplit
    exact ⟨pre, step, post, s, hsplit, hkind, (hr.status _ n hn).symm.trans hdown⟩
  refine .bind hreplay fun r _ => (v.finish_ensures r).mono ?_ fun _ _ => trivial
  rintro e ⟨nodeId, size, usage, rfl⟩
  simp [DownSendAlong]

/-- The packets marked at the node, going by the steps. -/
def ecnPacketsAfter (steps : List SimulationStep) (nodeId : String) : PacketStats :=
  steps.foldl (fun stats step => ((step.kind.congestion nodeId).map stats.trackOne).getD stats) {}

theorem ecnPacketsAfter_snoc (steps : List SimulationStep) (step : SimulationStep) (nodeId : String) :
    ecnPacketsAfter (steps ++ [step]) nodeId =
      ((step.kind.congestion nodeId).map (ecnPacketsAfter steps nodeId).trackOne).getD (ecnPacketsAfter steps nodeId) := by
  simp [ecnPacketsAfter]

/-- The replayed nodes count the marks that the steps record. -/
def CountsMarks (steps : List SimulationStep) (r : Replay) : Prop :=
  ∀ id n, r.nodes.lookup id = some n → n.ecnPackets = ecnPacketsAfter steps id

theorem run_ensures_countsMarks {v : SimulationVerifier} (hnew : ∀ id n, v.nodes.lookup id = some n → n.ecnPackets = {}) :
    v.run.Ensures (fun _ => True) (CountsMarks v.steps) := by
  unfold run
  have hreplay : (v.replay v.start v.steps).Ensures (fun _ => True) (CountsMarks ([] ++ v.steps)) := by
    refine Tracked.Ensures.fold [] (fun pre step post r _ hr => ?_) hnew
    refine (v.replayStep_nodes r step).mono (fun _ _ => trivial) fun r' hr' id n' hn' => ?_
    obtain ⟨n, hn, hstep⟩ := hr' id n' hn'
    rw [ecnPacketsAfter_snoc, hstep.ecnPackets, hr id n hn]
  refine .bind hreplay fun r hr => (v.finish_ensures r).mono (fun _ _ => trivial) ?_
  rintro r' ⟨nodes, hnodes, rfl⟩ id n' hn'
  obtain ⟨n, usage, hn, rfl⟩ := hnodes.origin hn'
  exact hr id n hn

end SimulationVerifier

end QuicWorkbench
