import QuicWorkbench.Lib.Along
import QuicWorkbench.Proofs.Log
import QuicWorkbench.Proofs.Replay
import QuicWorkbench.Proofs.Simulate
import QuicWorkbench.Proofs.Tables

/-!
# No packet is sent by a node that is down

The source node is up at every send as long as no packet gets past the waits unchecked while its node is
down, and no event takes a node down while a link's task yields with a packet of it (`NodeUpChecked`).
Then the log shows the source node up at every send, and the verifier has nothing to report.
-/

namespace QuicWorkbench

/-- The node that the next event takes down. -/
def State.nextNodeDown (net : InMemoryNetwork) (s : State) : Option NodeIx :=
  match s.events with
  | [] => none
  | event :: _ =>
    match event.kind with
    | .link _ => none
    | .node payload => if payload.status = some .down then net.nodesById.lookup payload.nodeId else none

/-- Whatever the link's task gets past the waits without a check of its node comes from a node that is up,
and no event takes a node down while a link's task yields with a packet of it. -/
def NodeUpChecked (net : InMemoryNetwork) (s : State) : Action → Prop
  | .linkTask j _ => ∀ p ∈ s.passesUnchecked j, s.pending p → (s.nodes p.srcNode).isDown = false
  | .networkEvent => ∀ i ∈ s.nextNodeDown net, ∀ j < net.links.length, ∀ p ∈ s.yieldingPacket j, p.srcNode ≠ i
  | _ => True

instance (net : InMemoryNetwork) (s : State) (a : Action) : Decidable (NodeUpChecked net s a) := by
  unfold NodeUpChecked
  split <;> infer_instance

/-- The source node of a packet that a task yields with is up. -/
def NodeUp (_ : LinkStatus) (node : NodeStatus) : Prop := node = .up

theorem NodeState.isDown_eq_false {n : NodeState} : n.isDown = false ↔ n.status = .up := by
  unfold isDown
  cases n.status <;> simp

/-- The log has the source node up at the send. -/
def SentFromUp (before : List SimulationStep) (step : SimulationStep) : Prop :=
  ∀ p, step.kind = .packetInTransit p → nodeStatusAfter before p.nodeId = .up

/-- The log has every node up that is up. -/
def LoggedUp (net : InMemoryNetwork) (s : State) : Prop :=
  ∀ i < net.nodes.length, (s.nodes i).status = .up → nodeStatusAfter s.log (net.node i).id = .up

/-! ### The source nodes -/

structure SourceUpInv (net : InMemoryNetwork) (s : State) : Prop where
  yields : YieldInv NodeUp s
  idle : ∀ j, net.links.length ≤ j → s.linkTasks j = .next

namespace SourceUpInv
variable {net : InMemoryNetwork} {s s' s₁ : State} {a : Action} {j : LinkIx} {p p' : OutgoingPacket}

theorem initialized {spec : NetworkSpec} {networkEvents : NetworkEvents} {s₀ : State} {simulationStart start now : Nat}
    {disableTimeWarping : Bool} (h : InMemoryNetwork.initializeNetwork spec networkEvents simulationStart start now
      disableTimeWarping = .ok (net, s₀)) : SourceUpInv net s₀ := by
  refine ⟨YieldInv.initialized h, fun j _ => ?_⟩
  refine InMemoryNetwork.initializeNetwork_induction (I := fun s => s.linkTasks j = .next) h rfl ?_ ?_
  · intro s payload _ hs
    rw [(s.processLinkEvent_frame net payload).linkTasks, hs]
  · intro s payload _ hs
    rw [(s.processNodeEvent_frame net payload).linkTasks, hs]

theorem step (h : SourceUpInv net s) (hC : NodeUpChecked net s a) (hstep : net.step s a = some s') :
    SourceUpInv net s' := by
  cases InMemoryNetwork.step_cases hstep with
  | event event events hevents hdue =>
    unfold State.processEvent
    cases hkind : event.kind with
    | link payload =>
      refine ⟨(h.yields.events events).linkEvent payload fun j p hp hup => hup, fun j hj => ?_⟩
      rw [(State.processLinkEvent_frame net _ payload).linkTasks]
      exact h.idle j hj
    | node payload =>
      constructor
      · refine (h.yields.events events).nodeEvent payload fun j p hp hup => ?_
        refine State.nodeStatus_processNodeEvent hup fun ⟨hdown, hlookup⟩ => ?_
        have hnext : s.nextNodeDown net = some p.srcNode := by
          simp [State.nextNodeDown, hevents, hkind, hdown, hlookup]
        have hp : s.yieldingPacket j = some p := hp
        have hj : j < net.links.length := by
          by_contra hj
          have := (State.yieldingPacket_eq_some.1 hp).1
          rw [h.idle j (Nat.le_of_not_lt hj)] at this
          simp at this
        exact hC p.srcNode hnext j hj p hp rfl
      · intro j hj
        rw [(State.processNodeEvent_frame net _ payload).linkTasks]
        exact h.idle j hj
  | link j slot _ hj he =>
    constructor
    · refine h.yields.linkEffect he fun p hpending _ hnode => ?_
      rcases hnode with hup | hunchecked
      · exact NodeState.isDown_eq_false.1 hup
      · exact NodeState.isDown_eq_false.1 (hC p hunchecked hpending)
    · intro j' hj'
      have hne : j' ≠ j := by
        rintro rfl
        exact absurd hj (Nat.not_lt_of_le hj')
      rw [he.frame.linkTasks j' hne]
      exact h.idle j' hj'
  | effects _ _ he =>
    exact Relation.ReflTransGen.preserves (I := fun σ => SourceUpInv net σ.state)
      (fun _ _ he h => ⟨h.yields.frame he.linkFrame, he.linkFrame.linkTasks ▸ h.idle⟩) he h

theorem source_up (h : SourceUpInv net s) {slot : Nat} (hC : NodeUpChecked net s (.linkTask j slot))
    (hpick : Picks j s p s₁ (.ready p')) (hpending : s.pending p) : (s.nodes p.srcNode).status = .up := by
  rcases hpick.checked h.yields.paced with hyield | hchecked
  · exact h.yields.yielding j p (State.yieldingPacket_eq_some.2 ⟨hyield, hpending⟩)
  · obtain ⟨queue, hs₁⟩ := hpick.eq_dequeue
    have hun : s₁.handled p.stay = false := by
      simp only [State.pending, Bool.and_eq_true, Bool.not_eq_eq_eq_not, Bool.not_true] at hpending
      rw [hs₁]
      exact hpending.1
    obtain ⟨-, -, hnode⟩ := hchecked.past (.inl ⟨_, rfl⟩) hun
    have hnodes : s₁.nodes = s.nodes := by rw [hs₁]; rfl
    rw [hnodes] at hnode
    rcases hnode with hup | hunchecked
    · exact NodeState.isDown_eq_false.1 hup
    · exact NodeState.isDown_eq_false.1 (hC p hunchecked hpending)

/-- The node is up where the task calls `send`. -/
theorem sendCall_up (h : SourceUpInv net s) {slot : Nat} (hC : NodeUpChecked net s (.linkTask j slot))
    (hcall : s.sendCall j = some (s₁, p)) : (s₁.nodes p.srcNode).status = .up := by
  obtain ⟨q, s₀, hpick, hpending, rfl⟩ := State.sendCall_picks hcall
  have hup := h.source_up hC hpick hpending
  obtain ⟨links, rfl⟩ := hpick.ready
  obtain ⟨queue, rfl⟩ := hpick.eq_dequeue
  exact hup

end SourceUpInv

/-! ### The log -/

namespace LoggedUp
variable {net : InMemoryNetwork} {s s' : State}

theorem logs (h : LoggedUp net s) (hlogs : Logs net (fun kind => ∀ id, kind.nodeStatus id = none) s s')
    (hstatus : ∀ i, (s'.nodes i).status = (s.nodes i).status) : LoggedUp net s' := by
  intro i hi hup
  rw [hstatus i] at hup
  cases hlogs with
  | same heq =>
    rw [heq]
    exact h i hi hup
  | step kind hkind heq =>
    rw [heq, nodeStatusAfter_snoc, hkind]
    exact h i hi hup

theorem nodeEvent {spec : NetworkSpec} (h : LoggedUp net s) (htables : net.Tables spec) (event : NodeEventPayload)
    (hunique : event.status = some .down → net.IdUnique event.nodeId) : LoggedUp net (s.processNodeEvent net event) := by
  intro i hi hup
  rcases State.processNodeEvent_cases net s event with heq | ⟨i₀, s₁, hlookup, hchange, heq⟩
  · rw [heq] at hup ⊢
    exact h i hi hup
  obtain ⟨hi₀, hid₀⟩ := htables.nodesById _ _ hlookup
  have hup₁ : (s₁.nodes i).status = .up := by
    rw [heq] at hup
    split_ifs at hup
    · by_cases hii : i = i₀ <;>
        simpa [State.trackNodeEvent, State.record, State.clearBuffer, NodeState.clearBuffer, State.setNode, hii] using hup
    · exact hup
  have hlog : (s.processNodeEvent net event).log =
      s.log ++ [{ relativeTime := s.now - net.simulationStart, kind := .networkEvent { link := none, node := some event } }] := by
    rw [heq]
    generalize event.status = status at hchange
    cases hchange <;> split_ifs <;> rfl
  rw [hlog, nodeStatusAfter_snoc]
  simp only [SimulationStepKind.nodeStatus, Option.bind_some]
  by_cases hid : event.nodeId = (net.node i).id
  · rw [if_pos hid]
    -- the event is about all nodes with the id, as far as the log is concerned
    generalize hstatus : event.status = status at hchange hunique
    cases hchange with
    | same _ hsame =>
      cases status with
      | none => exact h i hi hup₁
      | some u =>
        cases u with
        | up => rfl
        | down =>
          obtain rfl := hunique rfl i i₀ hi hi₀ hid.symm hid₀
          have := hsame _ rfl
          rw [hup₁] at this
          simp [NodeStatus.toUpdate] at this
    | down hup₀ =>
      obtain rfl := hunique rfl i i₀ hi hi₀ hid.symm hid₀
      simp [State.setNode] at hup₁
    | up upTx hdown => rfl
  · rw [if_neg hid]
    have hne : i ≠ i₀ := fun heq => hid (heq ▸ hid₀).symm
    refine h i hi ?_
    generalize event.status = status at hchange
    cases hchange with
    | same _ _ => exact hup₁
    | down _ => simpa [State.setNode, hne] using hup₁
    | up _ _ => simpa [State.setNode, hne] using hup₁

end LoggedUp

theorem nodeStatus_of_isForwarding {kind : SimulationStepKind} (h : kind.isForwarding) (id : String) :
    kind.nodeStatus id = none := by
  cases kind <;> simp_all [SimulationStepKind.isForwarding, SimulationStepKind.nodeStatus]

theorem StaysInv.srcNode_lt {net : InMemoryNetwork} {s : State} (h : StaysInv net s) {j : LinkIx} {p : OutgoingPacket}
    (hp : p ∈ s.copies j) : p.srcNode < net.nodes.length := by
  obtain ⟨hacc, links, hoff, hj⟩ := h.copy j p hp
  obtain ⟨i, d, hacc', hlinks⟩ := h.offered _ _ hoff
  obtain ⟨rfl, rfl⟩ := accepted_unique h.acceptedNodup hacc hacc'
  by_contra hlt
  have hnode : net.node p.srcNode = default := by
    rw [InMemoryNetwork.node, List.getD_eq_getElem?_getD, List.getElem?_eq_none (Nat.le_of_not_lt hlt)]
    rfl
  rw [hnode] at hlinks
  obtain rfl := Option.some.inj hlinks
  simp at hj

structure NodeUpInv (net : InMemoryNetwork) (s : State) : Prop where
  source : SourceUpInv net s
  stays : StaysInv net s
  logged : LoggedUp net s
  unique : ∀ e ∈ s.events, ∀ id st, e.nodeStatus = some (id, st) → net.IdUnique id
  sends : Along SentFromUp s.log

namespace NodeUpInv
variable {net : InMemoryNetwork} {s s' : State} {a : Action}

theorem along_logs {K : SimulationStepKind → Prop} (h : Along SentFromUp s.log) (hlogs : Logs net K s s')
    (hsend : ∀ p, K (.packetInTransit p) → nodeStatusAfter s.log p.nodeId = .up) : Along SentFromUp s'.log := by
  cases hlogs with
  | same heq => exact heq ▸ h
  | step kind hkind heq =>
    rw [heq, along_snoc]
    refine ⟨h, fun p hp => hsend p ?_⟩
    have hp : kind = .packetInTransit p := hp
    exact hp ▸ hkind

theorem step {spec : NetworkSpec} (htables : net.Tables spec) (h : NodeUpInv net s) (hC : NodeUpChecked net s a)
    (hstep : net.step s a = some s') : NodeUpInv net s' := by
  have hsource := h.source.step hC hstep
  have hstays : StaysInv net s' := (StaysInv.preserved net).step hstep h.stays
  have hunique : ∀ e ∈ s'.events, ∀ id st, e.nodeStatus = some (id, st) → net.IdUnique id :=
    fun e he => h.unique e (InMemoryNetwork.events_step hstep e he)
  cases InMemoryNetwork.step_cases hstep with
  | event event events hevents hdue =>
    unfold State.processEvent at hsource hstays hunique ⊢
    cases hkind : event.kind with
    | link payload =>
      simp only [hkind] at hsource hstays hunique
      have hlogs := State.linkEvent_logs net { s with events } payload
      refine ⟨hsource, hstays, ?_, hunique, along_logs (s := { s with events }) h.sends hlogs (by simp)⟩
      have hlogged : LoggedUp net { s with events } := h.logged
      refine hlogged.logs (hlogs.mono fun kind hk id => ?_) fun i => by rw [State.nodes_processLinkEvent]
      rw [hk.1]
      rfl
    | node payload =>
      simp only [hkind] at hsource hstays hunique
      have hlogs := State.nodeEvent_logs net { s with events } payload
      refine ⟨hsource, hstays, ?_, hunique, along_logs (s := { s with events }) h.sends hlogs (by simp)⟩
      have hlogged : LoggedUp net { s with events } := h.logged
      refine hlogged.nodeEvent htables payload fun hdown => ?_
      exact h.unique event (by simp [hevents]) _ .down (by simp [NetworkEvent.nodeStatus, hkind, hdown])
  | link j slot _ hj he =>
    refine ⟨hsource, hstays, ?_, hunique, along_logs h.sends he.logs ?_⟩
    · refine h.logged.logs (he.logs.mono ?_) he.frame.nodeStatus
      rintro kind (hk | ⟨p, p', s₁, -, -, rfl⟩)
      · exact nodeStatus_of_isForwarding hk
      · exact fun id => rfl
    · rintro _ (hk | ⟨p, p', s₁, hpick, hpending, hp⟩)
      · simp [SimulationStepKind.isForwarding] at hk
      · obtain rfl := SimulationStepKind.packetInTransit.inj hp
        have hmem : p ∈ s.copies j := by rw [hpick.copies]; exact List.mem_cons_self ..
        exact h.logged _ (h.stays.srcNode_lt hmem) (h.source.source_up hC hpick hpending)
  | effects _ _ he =>
    have hI : LoggedUp net s' ∧ Along SentFromUp s'.log := by
      refine Relation.ReflTransGen.preserves (I := fun σ => LoggedUp net σ.state ∧ Along SentFromUp σ.state.log)
        (fun σ σ' he hσ => ⟨?_, ?_⟩) he ⟨h.logged, h.sends⟩
      · exact hσ.1.logs (he.logs.mono fun kind hk => nodeStatus_of_isForwarding hk) he.linkFrame.nodeStatus
      · exact along_logs hσ.2 he.logs fun p hp => by simp [SimulationStepKind.isForwarding] at hp
    exact ⟨hsource, hstays, hI.1, hunique, hI.2⟩

theorem mem_firstStatuses {S : Type} {statusOf : NetworkEvent → Option (String × S)} {x : String × S}
    {events : List NetworkEvent} {seen : List String} (h : x ∈ firstStatuses statusOf events seen) :
    ∃ e ∈ events, statusOf e = some x := by
  induction events generalizing seen with
  | nil => simp [firstStatuses] at h
  | cons e events ih =>
    rw [firstStatuses] at h
    split at h
    · obtain ⟨e', he', hx⟩ := ih h
      exact ⟨e', List.mem_cons_of_mem _ he', hx⟩
    · rename_i id st hst
      split_ifs at h
      · obtain ⟨e', he', hx⟩ := ih h
        exact ⟨e', List.mem_cons_of_mem _ he', hx⟩
      · rcases List.mem_cons.1 h with rfl | h
        · exact ⟨e, List.mem_cons_self .., hst⟩
        · obtain ⟨e', he', hx⟩ := ih h
          exact ⟨e', List.mem_cons_of_mem _ he', hx⟩

theorem down_of_mem_initialNodeEvents {events : List NetworkEvent} {nodes : List NetworkNodeSpec}
    {links : List NetworkLinkSpec} {payload : NodeEventPayload}
    (h : payload ∈ (NetworkEvents.new events nodes links).initialNodeEvents) (hdown : payload.status = some .down) :
    ∃ e ∈ events, ∃ st, e.nodeStatus = some (payload.nodeId, st) := by
  simp only [NetworkEvents.new, getInitialStatusForNodesWithEvents, initialStatuses, List.map_append, List.mem_append,
    List.mem_map] at h
  rcases h with ⟨_, ⟨⟨id, st⟩, hx, rfl⟩, rfl⟩ | ⟨_, ⟨id, -, rfl⟩, rfl⟩
  · obtain ⟨e, he, hst⟩ := mem_firstStatuses hx
    exact ⟨e, (List.mem_insertionSort _).1 he, st, hst⟩
  · simp at hdown

theorem initialized {spec : NetworkSpec} {events : List NetworkEvent} {s₀ : State} {simulationStart start now : Nat}
    {disableTimeWarping : Bool} (h : InMemoryNetwork.initializeNetwork spec (.new events spec.nodes spec.links)
      simulationStart start now disableTimeWarping = .ok (net, s₀))
    (hids : ∀ e ∈ events, ∀ id st, e.nodeStatus = some (id, st) → net.IdUnique id) : NodeUpInv net s₀ := by
  have hsource := SourceUpInv.initialized h
  have hstays : StaysInv net s₀ := (StaysInv.preserved net).initialized h (.initial net _ _)
  have htables := InMemoryNetwork.buildNetwork_tables (InMemoryNetwork.initializeNetwork_ok h).1
  obtain ⟨hlogged, hsends, hevents⟩ : LoggedUp net s₀ ∧ Along SentFromUp s₀.log ∧
      s₀.events = (NetworkEvents.new events spec.nodes spec.links).sortedEvents := by
    refine InMemoryNetwork.initializeNetwork_induction (I := fun s => LoggedUp net s ∧ Along SentFromUp s.log ∧
      s.events = (NetworkEvents.new events spec.nodes spec.links).sortedEvents) h ?_ ?_ ?_
    · exact ⟨fun i hi hup => rfl, along_nil, rfl⟩
    · rintro s payload - ⟨hlogged, hsends, hevents⟩
      have hlogs := State.linkEvent_logs net s payload
      refine ⟨?_, along_logs hsends hlogs (by simp), ?_⟩
      · refine hlogged.logs (hlogs.mono fun kind hk id => ?_) fun i => by rw [State.nodes_processLinkEvent]
        rw [hk.1]
        rfl
      · rw [(State.processLinkEvent_frame net s payload).events, hevents]
    · rintro s payload hpayload ⟨hlogged, hsends, hevents⟩
      refine ⟨hlogged.nodeEvent htables payload fun hdown => ?_,
        along_logs hsends (State.nodeEvent_logs net s payload) (by simp), ?_⟩
      · obtain ⟨e, he, st, hst⟩ := down_of_mem_initialNodeEvents hpayload hdown
        exact hids e he _ st hst
      · rw [(State.processNodeEvent_frame net s payload).events, hevents]
  refine ⟨hsource, hstays, hlogged, fun e he => hids e ?_, hsends⟩
  rw [hevents] at he
  exact (List.mem_insertionSort _).1 he

end NodeUpInv

/-! ### Results -/

/-- Host `A` sends a packet, goes down, and the task of the link finds the packet in its queue and sends it
right away. The verifier reports it. -/
theorem send_from_node_that_is_down : ∃ net s v, Reaches false (hostPair 8000000 0)
      [HostPair.nodeEvent 1 "A" (some .down) false] net s ∧
    SimulationVerifier.new ["A", "B"] s.log (hostPair 8000000 0) = .ok v ∧ v.Reports (.nodeDownPacketSend "A" 1) := by
  obtain ⟨net, s, hreach, hs⟩ := exists_reaches_of_simulate (hostPair 8000000 0)
    [HostPair.nodeEvent 1 "A" (some .down) false]
    (HostPair.sendFromA 1 ++ [.advance 1, .networkEvent, .linkTask 0 0])
    (fun _ s => match SimulationVerifier.new ["A", "B"] s.log (hostPair 8000000 0) with
      | .ok v => v.Reports (.nodeDownPacketSend "A" 1)
      | .error _ => false) (by decide +kernel)
  cases hnew : SimulationVerifier.new ["A", "B"] s.log (hostPair 8000000 0) with
  | error e => simp [hnew] at hs
  | ok v => exact ⟨net, s, v, hreach, hnew, by simpa [hnew] using hs⟩

/-- In every run whose steps are all `NodeUpChecked`, the source node is up whenever a link's task calls
`NetworkLink::send`. If, moreover, no status event names an id that two nodes share, the log has the source
node up at every send, so that the verifier, which knows nodes by their ids, reports none. -/
theorem sourceUp_of_nodeUpChecked {spec : NetworkSpec} {events : List NetworkEvent} {net : InMemoryNetwork}
    {s₀ s : State} {simulationStart start now : Nat} {disableTimeWarping : Bool} {actions : List Action}
    (hinit : InMemoryNetwork.initializeNetwork spec (.new events spec.nodes spec.links) simulationStart start now
      disableTimeWarping = .ok (net, s₀))
    (hC : net.machine.Guarded (NodeUpChecked net) s₀ actions) (hrun : net.machine.run s₀ actions = some s) :
    (∀ j slot s₁ p, NodeUpChecked net s (.linkTask j slot) → s.sendCall j = some (s₁, p) →
      (s₁.nodes p.srcNode).status = .up) ∧
    ((∀ e ∈ events, ∀ id st, e.nodeStatus = some (id, st) → net.IdUnique id) →
      Along SentFromUp s.log ∧
      ∀ order v, SimulationVerifier.new order s.log spec = .ok v → ∀ nodeId id, ¬ v.Reports (.nodeDownPacketSend nodeId id)) := by
  constructor
  · intro j slot s₁ p hCj hcall
    have h : SourceUpInv net s := Machine.run_invariant_of_guarded (M := net.machine)
      (fun _ _ _ hs hC hstep => hs.step hC hstep) hC (SourceUpInv.initialized hinit) hrun
    exact h.sendCall_up hCj hcall
  intro hids
  have htables := InMemoryNetwork.buildNetwork_tables (InMemoryNetwork.initializeNetwork_ok hinit).1
  have h : NodeUpInv net s := Machine.run_invariant_of_guarded (M := net.machine)
    (fun _ _ _ hs hC hstep => hs.step htables hC hstep) hC (NodeUpInv.initialized hinit hids) hrun
  refine ⟨h.sends, fun order v hnew nodeId id hreports => ?_⟩
  have hlog : LogInv net s := LogInv.of_run hinit hrun
  have hv := SimulationVerifier.new_tables hnew
  have hstatus : ∀ id n, v.nodes.lookup id = some n → n.status = .up := fun id n hn => by
    rw [((hv.nodes id n).1 hn).2]
    rfl
  obtain ⟨pre, step, post, p, hsplit, hkind, hdown⟩ := (SimulationVerifier.run_ensures_downSend hstatus).errors _
    (SimulationVerifier.mem_errors_of_reports hreports) nodeId id rfl
  rw [hv.steps, hlog.insertionSort_eq] at hsplit
  have hup := (hsplit ▸ h.sends).at p hkind
  rw [hup] at hdown
  simp at hdown

/-- Host `A` goes down and comes up again, and only then sends a packet: the fast path of its first link's task finds the
node up. -/
theorem sourceUp_hostPair : ∃ net s₀ s v, InMemoryNetwork.initializeNetwork (hostPair 8000000 0)
      (.new [HostPair.nodeEvent 1 "A" (some .down) false, HostPair.nodeEvent 2 "A" (some .up) false]
        (hostPair 8000000 0).nodes (hostPair 8000000 0).links) 0 0 0 false = .ok (net, s₀) ∧
    net.machine.run s₀ ([.advance 1, .networkEvent, .advance 1, .networkEvent] ++ HostPair.sendFromA 1 ++
      [.linkTask 0 0]) = some s ∧
    (s.log.map (·.kind)).contains (.packetInTransit { packetId := 1, nodeId := "A", linkId := "a1b" }) ∧
    Along SentFromUp s.log ∧
    SimulationVerifier.new ["A", "B"] s.log (hostPair 8000000 0) = .ok v ∧ ¬ v.Reports (.nodeDownPacketSend "A" 1) := by
  obtain ⟨net, s₀, s, hinit, hC, hrun, hs⟩ := exists_of_simulateGuarded (hostPair 8000000 0)
    [HostPair.nodeEvent 1 "A" (some .down) false, HostPair.nodeEvent 2 "A" (some .up) false]
    ([.advance 1, .networkEvent, .advance 1, .networkEvent] ++ HostPair.sendFromA 1 ++ [.linkTask 0 0]) NodeUpChecked
    (fun _ s => (s.log.map (·.kind)).contains (.packetInTransit { packetId := 1, nodeId := "A", linkId := "a1b" }) &&
      (SimulationVerifier.new ["A", "B"] s.log (hostPair 8000000 0)).isOk)
    (by decide +kernel)
  rw [Bool.and_eq_true] at hs
  obtain ⟨hsent, hok⟩ := hs
  have htables := InMemoryNetwork.buildNetwork_tables (InMemoryNetwork.initializeNetwork_ok hinit).1
  obtain ⟨hsends, hverify⟩ := (sourceUp_of_nodeUpChecked hinit hC hrun).2
    fun _ _ _ _ _ => htables.idUnique (by decide) _
  obtain ⟨v, hnew⟩ := Except.isOk_iff.1 hok
  exact ⟨net, s₀, s, v, hinit, hrun, hsent, hsends, hnew, hverify _ v hnew _ _⟩

end QuicWorkbench
