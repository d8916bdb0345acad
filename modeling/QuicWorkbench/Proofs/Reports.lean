import QuicWorkbench.Proofs.Lifecycle
import QuicWorkbench.Proofs.Reordering
import QuicWorkbench.Proofs.ReplayLog
import QuicWorkbench.Proofs.Replayable
import QuicWorkbench.Proofs.Verified
import QuicWorkbench.Reports

/-!
# Reports are determined, and complete

The verifier and the reports iterate over hash maps, in any order. As long as no node exceeds its buffer, the order makes no
difference to what is printed (`print_eq_of_orders`). In every state that is reached, the report gets to its end and tells of
all nodes and links (`report_of_reaches`).
-/

namespace QuicWorkbench

/-- The error that ends an iteration over the nodes. -/
def NonFatalError.isExceeded : NonFatalError → Bool
  | .nodeExceedsBufferSize .. => true
  | _ => false

namespace SimulationVerifier
variable {v : SimulationVerifier} {P : NonFatalError → Prop} {order order' : List String} {nodeId : String}
  {nodes nodes' : HashMap String ReplayedNode} {n : ReplayedNode} {r r' : Replay}

/-! ### The loop over the nodes -/

/-- The nodes fit their buffers, with their updated usages, and the verifier knows the buffers. -/
def KnownFit (v : SimulationVerifier) (order : List String) (nodes : HashMap String ReplayedNode) : Prop :=
  ∀ nodeId ∈ order, ∀ n ∈ nodes.lookup nodeId, ∃ m, v.nodeMetadata.lookup nodeId = some m ∧
    n.updateMaxBufferUsage.maxBufferUsage ≤ m.bufferSizeBytes

theorem knownFit_of_loop (hP : ∀ e, P e → e.isExceeded = false) (hnodup : order.Nodup)
    (h : (v.updateMaxBufferUsageLoop order nodes).Within P nodes') : v.KnownFit order nodes := by
  induction order generalizing nodes with
  | nil =>
    intro nodeId hid
    simp at hid
  | cons id order ih =>
    obtain ⟨hnot, hnodup⟩ := List.nodup_cons.1 hnodup
    intro nodeId hid k hk
    cases hn : nodes.lookup id with
    | none =>
      rw [updateMaxBufferUsageLoop_of_none hn] at h
      rcases List.mem_cons.1 hid with rfl | hid
      · rw [hn] at hk
        simp at hk
      · exact ih hnodup h nodeId hid k hk
    | some n =>
      obtain ⟨m, hm, h⟩ := (updateMaxBufferUsageLoop_of_some hn).1 h
      split_ifs at h with hexceeds
      · have hfalse := hP _ h.1
        exact Bool.noConfusion hfalse
      · rcases List.mem_cons.1 hid with rfl | hid
        · obtain rfl := Option.some.inj (hn.symm.trans hk)
          exact ⟨m, hm, Nat.not_lt.1 hexceeds⟩
        · have hne : nodeId ≠ id := fun heq => hnot (heq ▸ hid)
          exact ih hnodup h nodeId hid k (by rwa [AList.lookup_insert_ne hne])

/-- Where all nodes fit, the loop gets to all of them. -/
theorem loop_of_knownFit (hnodup : order.Nodup) (h : v.KnownFit order nodes) :
    ∃ nodes', v.updateMaxBufferUsageLoop order nodes = ⟨[], .ok nodes'⟩ ∧ ∀ nodeId, nodes'.lookup nodeId =
      if nodeId ∈ order then (nodes.lookup nodeId).map ReplayedNode.updateMaxBufferUsage else nodes.lookup nodeId := by
  induction order generalizing nodes with
  | nil => exact ⟨nodes, rfl, fun nodeId => by simp⟩
  | cons id order ih =>
    obtain ⟨hnot, hnodup⟩ := List.nodup_cons.1 hnodup
    cases hn : nodes.lookup id with
    | none =>
      obtain ⟨nodes', hloop, hlookup⟩ := ih hnodup fun nodeId hid => h nodeId (List.mem_cons_of_mem _ hid)
      refine ⟨nodes', by rw [updateMaxBufferUsageLoop_of_none hn, hloop], fun nodeId => ?_⟩
      rw [hlookup]
      by_cases heq : nodeId = id
      · subst heq
        simp [hn]
      · simp [heq]
    | some n =>
      obtain ⟨m, hm, hle⟩ := h id (List.mem_cons_self ..) n hn
      have hother : ∀ nodeId, nodeId ≠ id → (nodes.insert id n.updateMaxBufferUsage).lookup nodeId = nodes.lookup nodeId :=
        fun nodeId hne => AList.lookup_insert_ne hne
      have hfit : v.KnownFit order (nodes.insert id n.updateMaxBufferUsage) := by
        intro nodeId hid k hk
        have hne : nodeId ≠ id := fun heq => hnot (heq ▸ hid)
        exact h nodeId (List.mem_cons_of_mem _ hid) k (hother nodeId hne ▸ hk)
      obtain ⟨nodes', hloop, hlookup⟩ := ih hnodup hfit
      refine ⟨nodes', ?_, fun nodeId => ?_⟩
      · rw [updateMaxBufferUsageLoop, hn]
        simp only [hm, unwrap, Tracked.ofOption_some, Tracked.bind_mk_ok, if_neg (Nat.not_lt.2 hle), List.nil_append]
        exact hloop
      · rw [hlookup]
        by_cases heq : nodeId = id
        · subst heq
          rw [if_neg hnot, AList.lookup_insert, if_pos (List.mem_cons_self ..), hn]
          rfl
        · rw [hother nodeId heq]
          simp [heq]

/-! ### Replays that differ in the order of the nodes -/

/-- The same replay, up to the order of the nodes. -/
def SameNodes (r r' : Replay) : Prop := ∃ nodes, r' = { r with nodes } ∧ ∀ nodeId, nodes.lookup nodeId = r.nodes.lookup nodeId

theorem SameNodes.insert {nodes : HashMap String ReplayedNode} (h : ∀ nodeId, nodes.lookup nodeId = r.nodes.lookup nodeId)
    (id : String) (n : ReplayedNode) (nodeId : String) :
    (nodes.insert id n).lookup nodeId = (r.nodes.insert id n).lookup nodeId := by
  by_cases heq : nodeId = id
  · subst heq
    rw [AList.lookup_insert, AList.lookup_insert]
  · rw [AList.lookup_insert_ne heq, AList.lookup_insert_ne heq, h nodeId]

theorem agrees_node {nodes : HashMap String ReplayedNode} (h : ∀ nodeId, nodes.lookup nodeId = r.nodes.lookup nodeId)
    (id : String) (e : FatalError) (f : ReplayedNode → Replaying ReplayedNode) :
    (tryFatal (r.nodes.lookup id) e >>= fun n => f n >>= fun n' => pure { r with nodes := r.nodes.insert id n' }).Agrees P
      SameNodes (tryFatal (nodes.lookup id) e >>= fun n => f n >>= fun n' => pure { r with nodes := nodes.insert id n' }) := by
  rw [h id]
  refine Tracked.agrees_bind fun n => Tracked.agrees_bind fun n' => Tracked.agrees_pure ⟨_, rfl, SameNodes.insert h id n'⟩

theorem agrees_packetInNode {now : Nat} {s : PacketInNode} (h : SameNodes r r') :
    (v.packetInNode r now s).Agrees P SameNodes (v.packetInNode r' now s) := by
  obtain ⟨nodes, rfl, h⟩ := h
  unfold packetInNode
  dsimp only
  cases r.inFlightPackets.lookup s.packetId with
  | none => exact Tracked.agrees_bind fun _ => agrees_node h _ _ _
  | some f =>
    refine Tracked.agrees_bind fun metadata => Tracked.agrees_bind fun _ => Tracked.agrees_bind fun t => ?_
    refine Tracked.agrees_bind fun _ => Tracked.agrees_bind fun link => ?_
    cases link.lastDownRelative with
    | none => exact agrees_node (r := { r with inFlightPackets := r.inFlightPackets.erase s.packetId }) h _ _ _
    | some lastDown =>
      refine Tracked.agrees_bind fun _ => ?_
      exact agrees_node (r := { r with inFlightPackets := r.inFlightPackets.erase s.packetId }) h _ _ _

theorem agrees_packetLostInTransit {s : PacketLostInTransit} (h : SameNodes r r') :
    (packetLostInTransit r s).Agrees P SameNodes (packetLostInTransit r' s) := by
  obtain ⟨nodes, rfl, h⟩ := h
  unfold packetLostInTransit
  dsimp only
  cases r.inFlightPackets.lookup s.packetId with
  | none => exact Tracked.agrees_bind fun _ => Tracked.agrees_pure ⟨nodes, rfl, h⟩
  | some f => exact Tracked.agrees_pure ⟨nodes, rfl, h⟩

theorem agrees_packetInTransit {now : Nat} {s : PacketInTransit} (h : SameNodes r r') :
    (v.packetInTransit r now s).Agrees P SameNodes (v.packetInTransit r' now s) := by
  obtain ⟨nodes, rfl, h⟩ := h
  unfold packetInTransit
  dsimp only
  rw [h s.nodeId]
  refine Tracked.agrees_bind fun n => Tracked.agrees_bind fun sent => ?_
  refine Tracked.agrees_bind fun metadata => Tracked.agrees_bind fun _ => Tracked.agrees_bind fun link => ?_
  refine Tracked.agrees_bind fun _ => Tracked.agrees_bind fun used => Tracked.agrees_bind fun _ => ?_
  exact Tracked.agrees_pure ⟨_, rfl, SameNodes.insert h _ _⟩

theorem agrees_networkEvent {now : Nat} {e : NetworkEventStep} (h : SameNodes r r') :
    (networkEvent r now e).Agrees P SameNodes (networkEvent r' now e) := by
  unfold networkEvent
  refine Tracked.Agrees.bind (T := SameNodes) ?_ fun r r' h => ?_
  · obtain ⟨nodes, rfl, h⟩ := h
    cases e.link with
    | none => exact Tracked.agrees_pure ⟨nodes, rfl, h⟩
    | some payload =>
      show (linkEvent r now payload).Agrees P SameNodes (linkEvent { r with nodes } now payload)
      unfold linkEvent
      cases payload.status with
      | none => exact Tracked.agrees_pure ⟨nodes, rfl, h⟩
      | some status => exact Tracked.agrees_bind fun link => Tracked.agrees_pure ⟨nodes, rfl, h⟩
  · obtain ⟨nodes, rfl, h⟩ := h
    cases e.node with
    | none => exact Tracked.agrees_pure ⟨nodes, rfl, h⟩
    | some payload =>
      show (nodeEvent r now payload).Agrees P SameNodes (nodeEvent { r with nodes } now payload)
      unfold nodeEvent
      dsimp only
      rw [h payload.nodeId]
      exact Tracked.agrees_bind fun n => Tracked.agrees_pure ⟨_, rfl, SameNodes.insert h _ _⟩

theorem agrees_replayKind {now : Nat} {kind : SimulationStepKind} (h : SameNodes r r') :
    (v.replayKind r now kind).Agrees P SameNodes (v.replayKind r' now kind) := by
  cases kind with
  | packetInNode s => exact agrees_packetInNode h
  | packetDuplicated s =>
    obtain ⟨nodes, rfl, h⟩ := h
    exact agrees_node h s.nodeId _ (·.packetDuplicated s now)
  | packetDropped s =>
    obtain ⟨nodes, rfl, h⟩ := h
    exact agrees_node h s.nodeId _ (·.packetDropped s)
  | packetLostInTransit s => exact agrees_packetLostInTransit h
  | packetInTransit s => exact agrees_packetInTransit h
  | packetCongestionEvent s =>
    obtain ⟨nodes, rfl, h⟩ := h
    exact agrees_node h s.nodeId _ fun n => pure (n.packetEcn s)
  | packetDeliveredToApplication s =>
    obtain ⟨nodes, rfl, h⟩ := h
    exact agrees_node h s.nodeId _ (·.packetDeliveredToAppLayer s.packetId)
  | packetExtraDelay s =>
    obtain ⟨nodes, rfl, h⟩ := h
    exact agrees_node h s.nodeId _ (·.packetHasExtraDelay s.packetId s.extraDelay)
  | networkEvent e => exact agrees_networkEvent h

theorem agrees_updateMaxBufferUsage (hP : ∀ e, P e → e.isExceeded = false) (hnodup : v.nodeOrder.Nodup)
    (hperm : v.nodeOrder.Perm order) (h : SameNodes r r') :
    (v.updateMaxBufferUsage r).Agrees P SameNodes ({ v with nodeOrder := order }.updateMaxBufferUsage r') := by
  obtain ⟨nodes, rfl, h⟩ := h
  intro r₁ hr₁
  obtain ⟨nodes₁, hloop, hr₁⟩ := Tracked.within_bind_iff.1 hr₁
  obtain rfl := Tracked.within_pure_iff.1 hr₁
  have hfit := knownFit_of_loop hP hnodup hloop
  have hfit' : ({ v with nodeOrder := order } : SimulationVerifier).KnownFit order nodes := fun id hid n hn =>
    hfit id (hperm.mem_iff.2 hid) n (h id ▸ hn)
  obtain ⟨nodes₂, hloop₂, hlookup₂⟩ := loop_of_knownFit hnodup hfit
  obtain ⟨nodes₃, hloop₃, hlookup₃⟩ := loop_of_knownFit (hperm.nodup_iff.1 hnodup) hfit'
  obtain rfl : nodes₂ = nodes₁ := by
    have hresult := hloop.1
    rw [hloop₂] at hresult
    exact Except.ok.inj hresult
  refine ⟨{ r with nodes := nodes₃ }, ⟨nodes₃, rfl, fun id => ?_⟩, ?_⟩
  · show nodes₃.lookup id = nodes₂.lookup id
    rw [hlookup₃, hlookup₂, h id]
    simp only [hperm.mem_iff]
  · unfold updateMaxBufferUsage
    rw [hloop₂, hloop₃]
    rfl

section
variable (hP : ∀ e, P e → e.isExceeded = false) (hnodup : v.nodeOrder.Nodup) (hperm : v.nodeOrder.Perm order)
include hP hnodup hperm

theorem agrees_replayStep {step : SimulationStep} (h : SameNodes r r') :
    (v.replayStep r step).Agrees P SameNodes ({ v with nodeOrder := order }.replayStep r' step) := by
  unfold replayStep
  refine Tracked.Agrees.bind (T := SameNodes) ?_ fun r₁ r₁' h₁ => agrees_replayKind h₁
  have htime : r'.lastStepTime = r.lastStepTime ∧ r'.lastBufferUsageUpdate = r.lastBufferUsageUpdate := by
    obtain ⟨nodes, rfl, -⟩ := h
    exact ⟨rfl, rfl⟩
  unfold advanceTime
  rw [htime.1]
  split_ifs with hlater
  · refine (agrees_updateMaxBufferUsage hP hnodup hperm h).bind fun r₁ r₁' h₁ => ?_
    obtain ⟨nodes₁, rfl, h₁⟩ := h₁
    exact Tracked.agrees_pure ⟨nodes₁, rfl, h₁⟩
  · exact Tracked.agrees_pure h

/-- The iteration over the nodes may go in any order, if none of them exceeds its buffer. -/
theorem agrees_run : v.run.Agrees P SameNodes { v with nodeOrder := order }.run := by
  unfold run
  have hstart : SameNodes v.start { v with nodeOrder := order }.start := ⟨v.nodes, rfl, fun _ => rfl⟩
  have hreplay : (v.replay v.start v.steps).Agrees P SameNodes ({ v with nodeOrder := order }.replay v.start v.steps) :=
    Tracked.Agrees.fold (fun r r' step h => agrees_replayStep hP hnodup hperm h) hstart
  refine hreplay.bind fun r r' h => ?_
  have htime : r'.lastStepTime = r.lastStepTime ∧ r'.lastBufferUsageUpdate = r.lastBufferUsageUpdate := by
    obtain ⟨nodes, rfl, -⟩ := h
    exact ⟨rfl, rfl⟩
  unfold finish
  rw [htime.1, htime.2]
  split_ifs
  · exact agrees_updateMaxBufferUsage hP hnodup hperm h
  · exact Tracked.agrees_pure h

end

end SimulationVerifier

/-! ### What is printed -/

/-- The same results, up to the orders in which the maps are iterated over. -/
structure VerifiedSimulation.Shuffles (a b : VerifiedSimulation) : Prop where
  nodes : a.stats.statsByNode.entries.Perm b.stats.statsByNode.entries
  links : a.stats.statsByLink.entries.Perm b.stats.statsByLink.entries
  errors : a.nonFatalErrors = b.nonFatalErrors

namespace SimulationStats
variable {stats stats' : SimulationStats}

instance : Std.Total usageLE where
  total t1 t2 := by
    unfold usageLE
    rcases Nat.lt_trichotomy t1.2.maxBufferUsage t2.2.maxBufferUsage with h | h | h
    · exact .inl (.inl h)
    · rcases le_total t2.1 t1.1 with hid | hid
      · exact .inl (.inr ⟨h, hid⟩)
      · exact .inr (.inr ⟨h.symm, hid⟩)
    · exact .inr (.inl h)

instance : IsTrans _ usageLE where
  trans t1 t2 t3 h h' := by
    unfold usageLE at *
    rcases h with h | ⟨h, hid⟩
    · left
      rcases h' with h' | ⟨h', -⟩ <;> omega
    · rcases h' with h' | ⟨h', hid'⟩
      · left
        omega
      · exact .inr ⟨h.trans h', hid'.trans hid⟩

instance {V : Type} : Std.Total (idLE (V := V)) := ⟨fun t1 t2 => le_total t1.1 t2.1⟩

instance {V : Type} : IsTrans _ (idLE (V := V)) := ⟨fun _ _ _ h h' => le_trans h h'⟩

/-- The order in which a map is iterated over makes no difference to a sort that tells its entries apart. -/
theorem insertionSort_entries {V : Type} {r : (Sigma fun _ : String => V) → (Sigma fun _ : String => V) → Prop} [DecidableRel r]
    [Std.Total r] [IsTrans _ r] (hr : ∀ a b, r a b → r b a → a.1 = b.1) {m m' : HashMap String V}
    (h : m.entries.Perm m'.entries) : m.entries.insertionSort r = m'.entries.insertionSort r := by
  have hsorts : (m.entries.insertionSort r).Perm (m'.entries.insertionSort r) :=
    (List.perm_insertionSort r _).trans (h.trans (List.perm_insertionSort r _).symm)
  refine hsorts.eq_of_pairwise (fun a b ha hb hab hba => ?_) (List.pairwise_insertionSort r _) (List.pairwise_insertionSort r _)
  have ha := (List.perm_insertionSort r _).mem_iff.1 ha
  have hb := h.mem_iff.2 ((List.perm_insertionSort r _).mem_iff.1 hb)
  exact m.nodupKeys.eq_of_fst_eq ha hb (hr a b hab hba)

theorem bufferUsage_congr (h : stats.statsByNode.entries.Perm stats'.statsByNode.entries) :
    stats.bufferUsage = stats'.bufferUsage := by
  refine congrArg List.reverse (insertionSort_entries (fun a b hab hba => ?_) h)
  unfold usageLE at hab hba
  rcases hab with hab | ⟨hab, hid⟩
  · omega
  · rcases hba with hba | ⟨-, hid'⟩
    · omega
    · exact le_antisymm hid' hid

theorem linkStats_congr (h : stats.statsByLink.entries.Perm stats'.statsByLink.entries) : stats.linkStats = stats'.linkStats :=
  insertionSort_entries (fun _ _ hab hba => le_antisymm hab hba) h

end SimulationStats

/-- What is printed does not depend on the orders in which the maps are iterated over. -/
theorem Command.print_congr {a b : VerifiedSimulation} (h : a.Shuffles b) (c : Command) (net : InMemoryNetwork)
    (formats : Formats) (serverNode clientNode : Node) :
    c.print net formats serverNode clientNode a = c.print net formats serverNode clientNode b := by
  have hnode : a.stats.printNode = b.stats.printNode := by
    funext id title
    rw [SimulationStats.printNode, AList.perm_lookup h.nodes]
    rfl
  have hlinks : a.stats.printLinkStats = b.stats.printLinkStats := by
    funext net formats
    have hnil : a.stats.statsByLink.entries = [] ↔ b.stats.statsByLink.entries = [] := by
      rw [← List.isEmpty_iff, ← List.isEmpty_iff, h.links.isEmpty_eq]
    simp only [SimulationStats.printLinkStats, SimulationStats.linkStats_congr h.links, hnil]
  have hbuffers : a.stats.printMaxBufferUsagePerNode = b.stats.printMaxBufferUsagePerNode := by
    simp only [SimulationStats.printMaxBufferUsagePerNode, SimulationStats.bufferUsage_congr h.nodes]
  simp only [Command.print, SimulationStats.printNodeStats, hnode, hlinks, hbuffers, h.errors]

/-- The order in which the nodes are iterated over makes no difference to what is printed, if no node exceeds its buffer. -/
theorem print_eq_of_orders {spec : NetworkSpec} {steps : List SimulationStep} {order order' : List String}
    {v v' : SimulationVerifier} {verified : VerifiedSimulation} (horder : NodeOrder spec order)
    (horder' : NodeOrder spec order') (hnew : SimulationVerifier.new order steps spec = .ok v)
    (hnew' : SimulationVerifier.new order' steps spec = .ok v') (hverify : v.verify = some (.ok verified))
    (hfit : ∀ e ∈ verified.nonFatalErrors, e.isExceeded = false) :
    ∃ verified', v'.verify = some (.ok verified') ∧ verified'.nonFatalErrors = verified.nonFatalErrors ∧
      ∀ shuffled : VerifiedSimulation, shuffled.Shuffles verified' → ∀ (c : Command) (net : InMemoryNetwork)
        (formats : Formats) (serverNode clientNode : Node),
        c.print net formats serverNode clientNode shuffled = c.print net formats serverNode clientNode verified := by
  have hnodeOrder := SimulationVerifier.new_nodeOrder hnew
  have hperm : v.nodeOrder.Perm order' := by
    rw [hnodeOrder]
    exact (List.perm_ext_iff_of_nodup horder.nodup horder'.nodup).2 fun id => (horder.mem_iff id).trans (horder'.mem_iff id).symm
  obtain rfl : v' = { v with nodeOrder := order' } := by
    obtain ⟨ipToNode, hmap, metadata, hmetadata, rfl⟩ := SimulationVerifier.new_eq_ok_iff.1 hnew
    obtain ⟨ipToNode', hmap', metadata', hmetadata', rfl⟩ := SimulationVerifier.new_eq_ok_iff.1 hnew'
    obtain rfl := Except.ok.inj (hmap.symm.trans hmap')
    obtain rfl := Except.ok.inj (hmetadata.symm.trans hmetadata')
    rfl
  obtain ⟨r, hr, hstats⟩ := SimulationVerifier.within_of_verify hverify
  have herrors : verified.nonFatalErrors = v.run.errors := by
    rw [SimulationVerifier.verify, hr.1] at hverify
    obtain rfl := Except.ok.inj (Option.some.inj hverify)
    rfl
  have hrun := SimulationVerifier.agrees_run (P := fun e => e.isExceeded = false) (fun _ h => h) (hnodeOrder ▸ horder.nodup) hperm
  obtain ⟨_, ⟨nodes, rfl, hnodes⟩, hrun⟩ := hrun r ⟨hr.1, fun e he => hfit e (hr.2 e he)⟩
  refine ⟨⟨SimulationVerifier.simulationStats { r with nodes }, v.run.errors⟩, ?_, herrors.symm, ?_⟩
  · rw [SimulationVerifier.verify, hrun]
  · intro shuffled hshuffled c net formats serverNode clientNode
    refine Command.print_congr ?_ c net formats serverNode clientNode
    have hsame : (SimulationVerifier.simulationStats { r with nodes }).statsByNode.entries.Perm
        verified.stats.statsByNode.entries := by
      refine List.lookup_ext (AList.nodupKeys _) (AList.nodupKeys _) fun id stats => ?_
      show stats ∈ (SimulationVerifier.simulationStats { r with nodes }).statsByNode.lookup id ↔
        stats ∈ verified.stats.statsByNode.lookup id
      rw [hstats, SimulationVerifier.lookup_statsByNode, SimulationVerifier.lookup_statsByNode]
      show stats ∈ (nodes.lookup id).map _ ↔ _
      rw [hnodes id]
    refine ⟨hshuffled.nodes.trans hsame, ?_, hshuffled.errors.trans herrors.symm⟩
    rw [hstats]
    exact hshuffled.links

/-- No host exceeds its buffer, so host `B` may come first. -/
theorem print_eq_of_orders_oneFlight : ∃ v v' verified verified',
    SimulationVerifier.new ["A", "B"] oneFlight (hostPair 8000000 0) = .ok v ∧ v.verify = some (.ok verified) ∧
    SimulationVerifier.new ["B", "A"] oneFlight (hostPair 8000000 0) = .ok v' ∧ v'.verify = some (.ok verified') ∧
    verified'.nonFatalErrors = verified.nonFatalErrors ∧ ∀ shuffled : VerifiedSimulation, shuffled.Shuffles verified' →
      ∀ (c : Command) (net : InMemoryNetwork) (formats : Formats) (serverNode clientNode : Node),
        c.print net formats serverNode clientNode shuffled = c.print net formats serverNode clientNode verified := by
  obtain ⟨v, verified, hnew, hverify, herrors, -⟩ := exists_verified_oneFlight
  obtain ⟨v', -, hnew', -⟩ := SimulationVerifier.exists_verified (hostPair 8000000 0) ["B", "A"] oneFlight (fun _ => true)
    (by decide +kernel)
  have horder' : NodeOrder (hostPair 8000000 0) ["B", "A"] := by
    refine ⟨by decide, fun id => ?_⟩
    rw [← hostPair_nodeOrder.mem_iff id]
    exact (List.Perm.swap "A" "B" []).mem_iff
  obtain ⟨verified', hverify', hsame, hprint⟩ := print_eq_of_orders hostPair_nodeOrder horder' hnew hnew' hverify (by
    intro e he
    simp [herrors] at he)
  exact ⟨v, v', verified, verified', hnew, hverify, hnew', hverify', hsame, hprint⟩

/-- Where both hosts exceed their buffers, the report is about the one that comes first. -/
theorem printErrors_of_orders_oversized (formats : Formats) : ∃ v v' verified verified',
    SimulationVerifier.new ["A", "B"] [oversizedAt "A" 1, oversizedAt "B" 2] (hostPair 8000000 0) = .ok v ∧
    v.verify = some (.ok verified) ∧
    SimulationVerifier.new ["B", "A"] [oversizedAt "A" 1, oversizedAt "B" 2] (hostPair 8000000 0) = .ok v' ∧
    v'.verify = some (.ok verified') ∧
    Command.printErrors formats "--- Errors" verified.nonFatalErrors =
      ["--- Errors ---", "* network node `A` is storing 1500 bytes, but its buffer is of 1000 bytes"] ∧
    Command.printErrors formats "--- Errors" verified'.nonFatalErrors =
      ["--- Errors ---", "* network node `B` is storing 1500 bytes, but its buffer is of 1000 bytes"] := by
  obtain ⟨v, verified, hnew, hverify, herrors⟩ := SimulationVerifier.exists_verified (hostPair 8000000 0) ["A", "B"]
    [oversizedAt "A" 1, oversizedAt "B" 2] (·.nonFatalErrors = [.nodeExceedsBufferSize "A" 1000 1500]) (by decide +kernel)
  obtain ⟨v', verified', hnew', hverify', herrors'⟩ := SimulationVerifier.exists_verified (hostPair 8000000 0) ["B", "A"]
    [oversizedAt "A" 1, oversizedAt "B" 2] (·.nonFatalErrors = [.nodeExceedsBufferSize "B" 1000 1500]) (by decide +kernel)
  refine ⟨v, v', verified, verified', hnew, hverify, hnew', hverify', ?_, ?_⟩
  · rw [of_decide_eq_true herrors]
    rfl
  · rw [of_decide_eq_true herrors']
    rfl

/-! ### What the statistics are about -/

namespace SimulationVerifier
variable {v : SimulationVerifier} {P : NonFatalError → Prop} {r r' : Replay} {steps : List SimulationStep}

theorem isSome_lookup_insert {V : Type} {m : HashMap String V} {k : String} {x : V} (h : (m.lookup k).isSome) (id : String) :
    ((m.insert k x).lookup id).isSome ↔ (m.lookup id).isSome := by
  by_cases heq : id = k
  · subst heq
    simp [h]
  · rw [AList.lookup_insert_ne heq]

/-- The links stay the same, and statistics are made for links that lose packets. -/
structure LinkKeys (kind : SimulationStepKind) (r r' : Replay) : Prop where
  links : ∀ id, (r'.links.lookup id).isSome ↔ (r.links.lookup id).isSome
  stats : ∀ id, (r'.statsByLink.lookup id).isSome → (r.statsByLink.lookup id).isSome ∨
    ∃ s, kind = .packetLostInTransit s ∧ s.linkId = id

theorem LinkKeys.of_eq {kind : SimulationStepKind} (hlinks : r'.links = r.links) (hstats : r'.statsByLink = r.statsByLink) :
    LinkKeys kind r r' := ⟨fun id => by rw [hlinks], fun id h => .inl (hstats ▸ h)⟩

theorem packetLostInTransit_linkKeys {s : PacketLostInTransit} (h : (packetLostInTransit r s).Within P r') :
    LinkKeys (.packetLostInTransit s) r r' := by
  have hrest := packetLostInTransit_within_iff.1 h
  cases hf : r.inFlightPackets.lookup s.packetId with
  | none =>
    simp only [hf] at hrest
    rw [hrest.2]
    exact .of_eq rfl rfl
  | some f =>
    simp only [hf] at hrest
    subst hrest
    refine ⟨fun _ => Iff.rfl, fun id hid => ?_⟩
    by_cases heq : id = s.linkId
    · exact .inr ⟨s, rfl, heq.symm⟩
    · rw [AList.lookup_insert_ne heq] at hid
      exact .inl hid

theorem networkEvent_linkKeys {now : Nat} {e : NetworkEventStep} (h : (networkEvent r now e).Within P r') :
    LinkKeys (.networkEvent e) r r' := by
  obtain ⟨r₁, hlink, hnolink, hnode, hnonode⟩ := networkEvent_within_iff.1 h
  have hlinks : LinkKeys (.networkEvent e) r r₁ := by
    cases hl : e.link with
    | none =>
      rw [hnolink hl]
      exact .of_eq rfl rfl
    | some payload =>
      have hevent := linkEvent_within_iff.1 (hlink payload hl)
      cases hstatus : payload.status with
      | none =>
        simp only [hstatus] at hevent
        rw [hevent]
        exact .of_eq rfl rfl
      | some status =>
        simp only [hstatus] at hevent
        obtain ⟨link, hlookup, rfl⟩ := hevent
        exact ⟨fun id => isSome_lookup_insert (by rw [hlookup]; rfl) id, fun _ => .inl⟩
  cases hn : e.node with
  | none =>
    rw [hnonode hn]
    exact hlinks
  | some payload =>
    obtain ⟨n, -, rfl⟩ := nodeEvent_within_iff.1 (hnode payload hn)
    exact ⟨hlinks.links, hlinks.stats⟩

theorem replayKind_linkKeys {now : Nat} {kind : SimulationStepKind} (h : (v.replayKind r now kind).Within P r') :
    LinkKeys kind r r' := by
  cases kind with
  | packetInNode s =>
    cases hf : r.inFlightPackets.lookup s.packetId with
    | some f =>
      obtain ⟨metadata, link, n, n', -, -, -, -, -, -, -, -, rfl⟩ := (packetInNode_within_iff_of_inFlight hf).1 h
      exact .of_eq rfl rfl
    | none =>
      obtain ⟨n, n', -, -, -, rfl⟩ := (packetInNode_within_iff_of_created hf).1 h
      exact .of_eq rfl rfl
  | packetDuplicated s =>
    obtain ⟨n, n', -, -, rfl⟩ := packetDuplicated_within_iff.1 h
    exact .of_eq rfl rfl
  | packetDropped s =>
    obtain ⟨n, n', -, -, rfl⟩ := packetDropped_within_iff.1 h
    exact .of_eq rfl rfl
  | packetExtraDelay s =>
    obtain ⟨n, n', -, -, rfl⟩ := packetExtraDelay_within_iff.1 h
    exact .of_eq rfl rfl
  | packetCongestionEvent s =>
    obtain ⟨n, -, rfl⟩ := packetCongestionEvent_within_iff.1 h
    exact .of_eq rfl rfl
  | packetDeliveredToApplication s =>
    obtain ⟨n, n', -, -, rfl⟩ := packetDeliveredToApplication_within_iff.1 h
    exact .of_eq rfl rfl
  | packetLostInTransit s => exact packetLostInTransit_linkKeys h
  | packetInTransit s =>
    obtain ⟨n, packet, n', metadata, link, link', usage, -, -, -, -, hlink, -, -, -, rfl⟩ := packetInTransit_within_iff.1 h
    exact ⟨fun id => isSome_lookup_insert (by rw [hlink]; rfl) id, fun _ => .inl⟩
  | networkEvent e => exact networkEvent_linkKeys h

theorem replay_linkKeys (h : (v.replay v.start steps).Within P r) :
    (∀ id, (r.links.lookup id).isSome ↔ (v.links.lookup id).isSome) ∧ ∀ id, (r.statsByLink.lookup id).isSome →
      ∃ step ∈ steps, ∃ s, step.kind = .packetLostInTransit s ∧ s.linkId = id := by
  refine replay_induction (I := fun steps r => (∀ id, (r.links.lookup id).isSome ↔ (v.links.lookup id).isSome) ∧
    ∀ id, (r.statsByLink.lookup id).isSome → ∃ step ∈ steps, ∃ s, step.kind = .packetLostInTransit s ∧ s.linkId = id)
    ⟨fun _ => Iff.rfl, fun id hid => ?_⟩ (fun steps r nodes time update hnodes hr => hr)
    (fun steps step r r' hflight hr hkind => ?_) h
  · simp [start, AList.lookup_empty] at hid
  · have hkeys := replayKind_linkKeys hkind
    refine ⟨fun id => (hkeys.links id).trans (hr.1 id), fun id hid => ?_⟩
    rcases hkeys.stats id hid with hid | ⟨s, hs, heq⟩
    · obtain ⟨step', hmem, hlost⟩ := hr.2 id hid
      exact ⟨step', List.mem_append_left _ hmem, hlost⟩
    · exact ⟨step, by simp, s, hs, heq⟩

theorem isSome_statsByLink (r : Replay) (id : String) : ((simulationStats r).statsByLink.lookup id).isSome ↔
    (r.links.lookup id).isSome ∨ (r.statsByLink.lookup id).isSome := by
  have hfold : ∀ (es : List ((_ : String) × ReplayedLink)) (stats : HashMap String LinkStats),
      ((es.foldl (fun stats e => stats.insert e.1
        { (stats.lookup e.1).getD {} with maxUsedBandwidthBps := e.2.maxBandwidthUsageBps }) stats).lookup id).isSome ↔
        id ∈ es.map Sigma.fst ∨ (stats.lookup id).isSome := by
    intro es
    induction es with
    | nil => simp
    | cons e es ih =>
      intro stats
      rw [List.foldl_cons, ih]
      by_cases heq : id = e.1
      · subst heq
        simp
      · rw [AList.lookup_insert_ne heq]
        simp [heq]
  rw [AList.lookup_isSome (s := r.links)]
  exact hfold r.links.entries r.statsByLink

/-- The statistics of a verified log are about the nodes and links of the graph, if packets get lost on these only. -/
theorem isSome_stats {order : List String} {spec : NetworkSpec} {verified : VerifiedSimulation}
    (hnew : SimulationVerifier.new order steps spec = .ok v) (hverify : v.verify = some (.ok verified))
    (hlost : ∀ step ∈ v.steps, ∀ s, step.kind = .packetLostInTransit s → s.linkId ∈ spec.links.map NetworkLinkSpec.id) :
    (∀ id, (verified.stats.statsByNode.lookup id).isSome ↔ id ∈ spec.nodes.map NetworkNodeSpec.id) ∧
      ∀ id, (verified.stats.statsByLink.lookup id).isSome ↔ id ∈ spec.links.map NetworkLinkSpec.id := by
  have htables := new_tables hnew
  obtain ⟨r, hr, hstats⟩ := within_of_verify hverify
  obtain ⟨r₀, h₀, hfinish⟩ := Tracked.within_bind_iff.1 hr
  obtain ⟨nodes, hnodes, rfl⟩ := finish_within hfinish
  have hlinkKeys := replay_linkKeys h₀
  rw [hstats]
  constructor
  · intro id
    have hkept : (nodes.lookup id).isSome ↔ (r₀.nodes.lookup id).isSome := by
      rcases hnodes id with ⟨hold, hnew⟩ | ⟨n, usage, hold, hnew⟩ <;> simp [hold, hnew]
    rw [lookup_statsByNode, Option.isSome_map, hkept, replay_isSome_iff h₀, Option.isSome_iff_exists]
    constructor
    · rintro ⟨n, hn⟩
      exact ((htables.nodes id n).1 hn).1
    · intro hid
      exact ⟨_, (htables.nodes id _).2 ⟨hid, rfl⟩⟩
  · intro id
    have hlink : (v.links.lookup id).isSome ↔ id ∈ spec.links.map NetworkLinkSpec.id := by
      rw [Option.isSome_iff_exists]
      constructor
      · rintro ⟨l, hl⟩
        exact ((htables.links id l).1 hl).1
      · intro hid
        exact ⟨_, (htables.links id _).2 ⟨hid, rfl⟩⟩
    rw [isSome_statsByLink]
    constructor
    · rintro (hid | hid)
      · exact hlink.1 ((hlinkKeys.1 id).1 hid)
      · obtain ⟨step, hstep, s, hs, rfl⟩ := hlinkKeys.2 id hid
        exact hlost step hstep s hs
    · exact fun hid => .inl ((hlinkKeys.1 id).2 (hlink.2 hid))

end SimulationVerifier

/-! ### Logs of the network -/

theorem Lived.lt_length {net : InMemoryNetwork} {id : Uuid} {steps : List SimulationStep} {j : LinkIx} {sent number size : Nat}
    (h : Lived net id steps (.onLink j sent number size)) : j < net.links.length := by
  generalize hl : Stage.onLink j sent number size = l at h
  induction h with
  | nil => cases hl
  | other step h hother ih => exact ih hl
  | next step h hnext ih =>
    generalize step.kind = kind at hnext
    cases hnext with
    | sent i j' since number size hsince hj hsource =>
      obtain ⟨rfl, -⟩ := Stage.onLink.inj hl
      exact hj
    | created => cases hl
    | droppedOnCreation => cases hl
    | duplicated => cases hl
    | arrived => cases hl
    | droppedOnArrival => cases hl
    | lost => cases hl
    | dropped => cases hl
    | delivered => cases hl

theorem Lived.link_of_lost {net : InMemoryNetwork} {s : PacketLostInTransit} {steps : List SimulationStep} {l : Stage}
    (h : Lived net s.packetId steps l) {step : SimulationStep} (hstep : step ∈ steps)
    (hkind : step.kind = .packetLostInTransit s) : ∃ j < net.links.length, (net.link j).id = s.linkId := by
  obtain ⟨id, linkId⟩ := s
  induction h with
  | nil => simp at hstep
  | other last h hother ih =>
    rcases List.mem_append.1 hstep with hstep | hstep
    · exact ih hstep
    · rw [List.mem_singleton.1 hstep] at hkind
      exact absurd (congrArg SimulationStepKind.packetId hkind) hother
  | next last h hnext ih =>
    rcases List.mem_append.1 hstep with hstep | hstep
    · exact ih hstep
    · rw [← List.mem_singleton.1 hstep, hkind] at hnext
      cases hnext with
      | lost j sent number size harrived => exact ⟨j, h.lt_length, rfl⟩

namespace SimulationStats

/-- Each node and each link of the graph has its place in the report, nodes that used more of their buffers before those that
used less. -/
structure Complete (spec : NetworkSpec) (stats : SimulationStats) : Prop where
  nodes : (stats.bufferUsage.map Sigma.fst).Perm (spec.nodes.map NetworkNodeSpec.id)
  usage : stats.bufferUsage.Pairwise fun t1 t2 => t2.2.maxBufferUsage ≤ t1.2.maxBufferUsage
  links : stats.linkStats.map Sigma.fst = (spec.links.map NetworkLinkSpec.id).insertionSort (· ≤ ·)

theorem perm_keys {V : Type} {m : HashMap String V} {ids : List String} (hids : ids.Nodup)
    (h : ∀ id, (m.lookup id).isSome ↔ id ∈ ids) : (m.entries.map Sigma.fst).Perm ids := by
  refine (List.perm_ext_iff_of_nodup m.keys_nodup hids).2 fun id => ?_
  rw [← h id, AList.lookup_isSome]
  rfl

theorem complete_of_isSome {spec : NetworkSpec} {stats : SimulationStats} (hids : (spec.nodes.map NetworkNodeSpec.id).Nodup)
    (hlinkIds : (spec.links.map NetworkLinkSpec.id).Nodup)
    (hnodes : ∀ id, (stats.statsByNode.lookup id).isSome ↔ id ∈ spec.nodes.map NetworkNodeSpec.id)
    (hlinks : ∀ id, (stats.statsByLink.lookup id).isSome ↔ id ∈ spec.links.map NetworkLinkSpec.id) : stats.Complete spec where
  nodes := (((List.reverse_perm _).trans (List.perm_insertionSort ..)).map _).trans (perm_keys hids hnodes)
  usage := by
    rw [bufferUsage, List.pairwise_reverse]
    refine (List.pairwise_insertionSort usageLE _).imp fun h => ?_
    rcases h with h | ⟨h, -⟩
    · exact h.le
    · exact h.le
  links := by
    have hsorted : (stats.linkStats.map Sigma.fst).Pairwise (· ≤ ·) :=
      List.pairwise_map.2 (List.pairwise_insertionSort idLE _)
    have hperm : (stats.linkStats.map Sigma.fst).Perm ((spec.links.map NetworkLinkSpec.id).insertionSort (· ≤ ·)) :=
      ((List.perm_insertionSort ..).map _).trans ((perm_keys hlinkIds hlinks).trans (List.perm_insertionSort ..).symm)
    exact hperm.eq_of_pairwise (fun _ _ _ _ => le_antisymm) hsorted (List.pairwise_insertionSort ..)

end SimulationStats

theorem isSome_mapM {α β : Type} {f : α → Option β} {l : List α} (h : ∀ a ∈ l, (f a).isSome) : (l.mapM f).isSome := by
  induction l with
  | nil => rfl
  | cons a l ih =>
    obtain ⟨b, hb⟩ := Option.isSome_iff_exists.1 (h a (List.mem_cons_self ..))
    obtain ⟨bs, hbs⟩ := Option.isSome_iff_exists.1 (ih fun a' ha' => h a' (List.mem_cons_of_mem _ ha'))
    rw [List.mapM_cons, hb, hbs]
    rfl

section
variable {spec : NetworkSpec} {net : InMemoryNetwork} {stats : SimulationStats}

theorem SimulationStats.isSome_printNodeStats {nodeIds : List String} {serverNode clientNode : Node} {verbose : Bool}
    (hnodes : ∀ id, (stats.statsByNode.lookup id).isSome ↔ id ∈ spec.nodes.map NetworkNodeSpec.id)
    (hids : ∀ id ∈ nodeIds, id ∈ spec.nodes.map NetworkNodeSpec.id)
    (hserver : serverNode.id ∈ spec.nodes.map NetworkNodeSpec.id) (hclient : clientNode.id ∈ spec.nodes.map NetworkNodeSpec.id) :
    (stats.printNodeStats nodeIds serverNode clientNode verbose).isSome := by
  have hprint : ∀ id ∈ spec.nodes.map NetworkNodeSpec.id, ∀ title, (stats.printNode id title).isSome := by
    intro id hid title
    rw [printNode, Option.isSome_map]
    exact (hnodes id).2 hid
  obtain ⟨client, hclient⟩ := Option.isSome_iff_exists.1 (hprint _ hclient s!"* {clientNode.id} (client)")
  obtain ⟨server, hserver⟩ := Option.isSome_iff_exists.1 (hprint _ hserver s!"* {serverNode.id} (server)")
  have hothers : ((if verbose then nodeIds.filter fun id => id ≠ serverNode.id ∧ id ≠ clientNode.id else []).mapM fun id =>
      stats.printNode id s!"* {id}").isSome := by
    refine isSome_mapM fun id hid => hprint id (hids id ?_) _
    cases verbose with
    | false => simp at hid
    | true => exact List.mem_of_mem_filter hid
  obtain ⟨others, hothers⟩ := Option.isSome_iff_exists.1 hothers
  rw [printNodeStats, hclient, hserver]
  show (_ >>= _ : Option (List String)).isSome
  rw [hothers]
  rfl

theorem SimulationStats.isSome_printLinkStats (htables : net.Tables spec) (formats : Formats)
    (hlinks : ∀ id, (stats.statsByLink.lookup id).isSome ↔ id ∈ spec.links.map NetworkLinkSpec.id) :
    (stats.printLinkStats net formats).isSome := by
  have hprint : ∀ e ∈ stats.linkStats, (e.2.print net formats e.1).isSome := by
    intro e he
    have hmem : e.1 ∈ spec.links.map NetworkLinkSpec.id := by
      rw [← hlinks, AList.lookup_isSome]
      exact List.mem_map_of_mem ((List.perm_insertionSort ..).mem_iff.1 he)
    rw [← htables.links] at hmem
    obtain ⟨l, hl, hid⟩ := List.mem_map.1 hmem
    obtain ⟨j, hj, rfl⟩ := List.getElem_of_mem hl
    have hlookup : net.linksById.lookup e.1 = some j := by
      refine (htables.linksById _ _).2 ⟨hj, ?_⟩
      rw [← hid, InMemoryNetwork.link, List.getD_eq_getElem?_getD, List.getElem?_eq_getElem hj]
      rfl
    simp [LinkStats.print, InMemoryNetwork.getLinkBandwidthBps, hlookup]
  obtain ⟨lines, hlines⟩ := Option.isSome_iff_exists.1 (isSome_mapM hprint)
  rw [printLinkStats, hlines]
  rfl

/-- It takes the graph alone to tell whether a verifier can be made. -/
theorem SimulationVerifier.new_eq_error {order : List String} {steps : List SimulationStep} {e : NewError}
    (h : SimulationVerifier.new order steps spec = .error e) (order' : List String) (steps' : List SimulationStep) :
    SimulationVerifier.new order' steps' spec = .error e := by
  simp only [new, Except.bind_eq_error] at h ⊢
  rcases h with h | ⟨ipToNode, hmap, h | ⟨metadata, -, h⟩⟩
  · exact .inl h
  · exact .inr ⟨ipToNode, hmap, .inl h⟩
  · cases h

theorem InMemoryNetwork.Tables.id_mem (htables : net.Tables spec) {i : NodeIx} (hi : i < net.nodes.length) :
    (net.node i).id ∈ spec.nodes.map NetworkNodeSpec.id := by
  obtain ⟨n, hn, hof⟩ := htables.of_node hi
  exact List.mem_map.2 ⟨n, hn, hof.id.symm⟩

theorem InMemoryNetwork.Tables.id_mem_of_host (htables : net.Tables spec) {ip : IpAddr} {i : NodeIx}
    (hi : net.host ip = some i) : (net.node i).id ∈ spec.nodes.map NetworkNodeSpec.id := by
  have hlookup := (Option.filter_eq_some_iff.1 hi).1
  exact htables.id_mem (htables.nodesByAddr _ _ hlookup).1

theorem InMemoryNetwork.Tables.mem_of_getNodeIds (htables : net.Tables spec) {id : String} (hid : id ∈ net.getNodeIds) :
    id ∈ spec.nodes.map NetworkNodeSpec.id := by
  have hkey : id ∈ net.nodesById.keys := (List.perm_insertionSort ..).mem_iff.1 hid
  obtain ⟨i, hi⟩ := Option.isSome_iff_exists.1 (AList.lookup_isSome.2 (AList.mem_keys.2 hkey))
  obtain ⟨hlt, rfl⟩ := htables.nodesById _ _ hi
  exact htables.id_mem hlt

/-- With statistics of all nodes and links, a command prints to its end. -/
theorem Command.exists_print (htables : net.Tables spec) {verified : VerifiedSimulation} {server client : NodeIx}
    {serverIp clientIp : IpAddr} (hserver : net.host serverIp = some server) (hclient : net.host clientIp = some client)
    (hnodes : ∀ id, (verified.stats.statsByNode.lookup id).isSome ↔ id ∈ spec.nodes.map NetworkNodeSpec.id)
    (hlinks : ∀ id, (verified.stats.statsByLink.lookup id).isSome ↔ id ∈ spec.links.map NetworkLinkSpec.id) (c : Command)
    (formats : Formats) :
    ∃ lines, c.print net formats (net.node server) (net.node client) verified = some lines := by
  have hgiven : ∀ id ∈ (if c.givesNodeIds then net.getNodeIds else []), id ∈ spec.nodes.map NetworkNodeSpec.id := by
    intro id hid
    split_ifs at hid
    · exact htables.mem_of_getNodeIds hid
    · simp at hid
  have hnodeStats : (verified.stats.printNodeStats (if c.givesNodeIds then net.getNodeIds else []) (net.node server)
      (net.node client) c.verboseNodeStats).isSome :=
    SimulationStats.isSome_printNodeStats hnodes hgiven (htables.id_mem_of_host hserver) (htables.id_mem_of_host hclient)
  obtain ⟨nodeLines, hnodeLines⟩ := Option.isSome_iff_exists.1 hnodeStats
  obtain ⟨linkLines, hlinkLines⟩ := Option.isSome_iff_exists.1
    (SimulationStats.isSome_printLinkStats htables formats hlinks)
  rw [Command.print, hnodeLines, hlinkLines]
  exact ⟨_, rfl⟩

section
variable {events : List NetworkEvent} {s : State} {disableTimeWarping : Bool}

theorem linkId_mem_of_lost (h : Reaches disableTimeWarping spec events net s) (hgen : s.generated.Nodup) {step : SimulationStep}
    (hstep : step ∈ s.log) {p : PacketLostInTransit} (hkind : step.kind = .packetLostInTransit p) :
    p.linkId ∈ spec.links.map NetworkLinkSpec.id := by
  have hinv := (LifeInv.preserved h.tables).reaches (fun now events hnow => .initial net now events hnow) h
  obtain ⟨l, hlived⟩ := (hinv.lives hgen).2.lived p.packetId
  obtain ⟨j, hj, hid⟩ := hlived.link_of_lost hstep hkind
  rw [← hid, ← h.tables.links, InMemoryNetwork.link, List.getD_eq_getElem?_getD, List.getElem?_eq_getElem hj]
  exact List.mem_map_of_mem (List.getElem_mem hj)

/-- In every state reached with distinct ids, the report gets to its end and is complete, unless no verifier can be made of
the graph. -/
theorem report_of_reaches {server client : NodeIx} {serverIp clientIp : IpAddr}
    (h : Reaches disableTimeWarping spec events net s) (hids : (spec.nodes.map NetworkNodeSpec.id).Nodup)
    (hgen : s.generated.Nodup) (hserver : net.host serverIp = some server) (hclient : net.host clientIp = some client)
    (c : Command) (formats : Formats) (order : List String) :
    (∃ e, c.report net formats serverIp clientIp spec order s = some (.error (.verifier e)) ∧
      ∀ order' steps, SimulationVerifier.new order' steps spec = .error e) ∨
    ∃ verified lines, c.print net formats (net.node server) (net.node client) verified = some lines ∧
      c.report net formats serverIp clientIp spec order s = some (.ok lines) ∧ verified.stats.Complete spec := by
  have htables := h.tables
  cases hnew : SimulationVerifier.new order s.log spec with
  | error e =>
    left
    exact ⟨e, by rw [Command.report, hnew], SimulationVerifier.new_eq_error hnew⟩
  | ok v =>
    right
    obtain ⟨verified, hverify, -⟩ := (h.replayInv hnew).verify h.logInv (MayReport.allows net) hnew hgen
      (fun _ _ _ _ _ _ _ => htables.idUnique hids _)
    have hsteps : v.steps = s.log := by
      rw [(SimulationVerifier.new_tables hnew).steps, h.logInv.insertionSort_eq]
    obtain ⟨hnodes, hlinks⟩ := SimulationVerifier.isSome_stats hnew hverify fun step hstep p hkind =>
      linkId_mem_of_lost h hgen (hsteps ▸ hstep) hkind
    obtain ⟨lines, hlines⟩ := Command.exists_print htables hserver hclient hnodes hlinks c formats
    refine ⟨verified, lines, hlines, ?_, SimulationStats.complete_of_isSome hids htables.linkIds hnodes hlinks⟩
    rw [Command.report, hnew]
    show (v.verify >>= _) = _
    rw [hverify]
    show (net.host serverIp >>= _) = _
    rw [hserver]
    show (net.host clientIp >>= _) = _
    rw [hclient]
    show (c.print net formats (net.node server) (net.node client) verified >>= _) = _
    rw [hlines]
    rfl

end

end

/-- A packet is delivered, and then the report is complete. -/
theorem report_hostPair : ∃ net s verified lines, Reaches false (hostPair 8000000 0) [] net s ∧
    Command.throughput.report net ⟨.hyphenated, fun _ _ => "0.00"⟩ (.v4 HostPair.b) (.v4 HostPair.a₁) (hostPair 8000000 0)
      ["A", "B"] s = some (.ok lines) ∧
    Command.throughput.print net ⟨.hyphenated, fun _ _ => "0.00"⟩ (net.node 1) (net.node 0) verified = some lines ∧
    verified.stats.Complete (hostPair 8000000 0) := by
  obtain ⟨net, s, hreach, hs⟩ := exists_reaches_of_simulate (hostPair 8000000 0) [] (HostPair.deliver 1)
    (fun net s => decide s.generated.Nodup && (net.host (.v4 HostPair.b) == some 1) && (net.host (.v4 HostPair.a₁) == some 0) &&
      (SimulationVerifier.new ["A", "B"] s.log (hostPair 8000000 0)).isOk)
    (by decide +kernel)
  simp only [Bool.and_eq_true, decide_eq_true_eq, beq_iff_eq] at hs
  obtain ⟨⟨⟨hgen, hserver⟩, hclient⟩, hok⟩ := hs
  rcases report_of_reaches hreach (by decide) hgen hserver hclient Command.throughput ⟨.hyphenated, fun _ _ => "0.00"⟩
    ["A", "B"] with ⟨e, -, hnew⟩ | ⟨verified, lines, hlines, hreport, hcomplete⟩
  · rw [hnew] at hok
    simp [Except.isOk, Except.toBool] at hok
  · exact ⟨net, s, verified, lines, hreach, hreport, hlines, hcomplete⟩

end QuicWorkbench
