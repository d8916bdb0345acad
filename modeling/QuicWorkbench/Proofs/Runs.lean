import QuicWorkbench.Proofs.Effects

/-!
# Events, and the invariants of runs

What network events do to a state (`LinkChange`, `NodeChange`) and what they leave as it is
(`EventFrame`). A stretch of the machine is an event, an iteration of a link task, or a chain of
effects (`step_cases`), so what all of these preserve (`Preserved`) holds in every state reached.
-/

namespace QuicWorkbench
namespace State

/-- What an event makes of the status of its link. -/
inductive LinkChange (s : State) (j : LinkIx) : Option UpdateLinkStatus → State → Prop
  | same (status : Option UpdateLinkStatus) (h : ∀ u ∈ status, u = (s.links j).status.toUpdate) :
      LinkChange s j status s
  | down (hup : (s.links j).status = .up) :
      LinkChange s j (some .down)
        { s.setLink j { s.links j with status := .down s.oneshots.length, lastDown := some s.now } with
          oneshots := s.oneshots ++ [false] }
  | up (upTx : Nat) (hdown : (s.links j).status = .down upTx) :
      LinkChange s j (some .up)
        { s.setLink j { s.links j with status := .up } with oneshots := s.oneshots.set upTx true }

/-- What an event makes of the status of its node. -/
inductive NodeChange (s : State) (i : NodeIx) : Option UpdateNodeStatus → State → Prop
  | same (status : Option UpdateNodeStatus) (h : ∀ u ∈ status, u = (s.nodes i).status.toUpdate) :
      NodeChange s i status s
  | down (hup : (s.nodes i).status = .up) :
      NodeChange s i (some .down)
        { s.setNode i { s.nodes i with status := .down s.oneshots.length } with oneshots := s.oneshots ++ [false] }
  | up (upTx : Nat) (hdown : (s.nodes i).status = .down upTx) :
      NodeChange s i (some .up)
        { s.setNode i { s.nodes i with status := .up } with oneshots := s.oneshots.set upTx true }

def clearBuffer (s : State) (i : NodeIx) : State := s.setNode i ((s.nodes i).clearBuffer s.now)

theorem linkChange_of_status (s : State) (j : LinkIx) (status : Option UpdateLinkStatus) :
    LinkChange s j status (match status with
      | some status => s.updateLinkStatus j status
      | none => s) := by
  have hself : s.setLink j (s.links j) = s := by simp [setLink]
  cases status with
  | none => exact .same _ (by simp)
  | some u =>
    simp only [updateLinkStatus, NetworkLink.updateStatus_eq]
    cases hs : (s.links j).status with
    | up =>
      cases u with
      | up => simp only [hself]; exact .same _ (by simp [hs, LinkStatus.toUpdate])
      | down => exact .down hs
    | down upTx =>
      cases u with
      | up => exact .up upTx hs
      | down => simp only [hself]; exact .same _ (by simp [hs, LinkStatus.toUpdate])

theorem nodeChange_of_status (s : State) (i : NodeIx) (status : Option UpdateNodeStatus) :
    NodeChange s i status (match status with
      | some status => s.updateNodeStatus i status
      | none => s) := by
  have hself : s.setNode i (s.nodes i) = s := by simp [setNode]
  cases status with
  | none => exact .same _ (by simp)
  | some u =>
    simp only [updateNodeStatus, NodeState.updateStatus_eq]
    cases hs : (s.nodes i).status with
    | up =>
      cases u with
      | up => simp only [hself]; exact .same _ (by simp [hs, NodeStatus.toUpdate])
      | down => exact .down hs
    | down upTx =>
      cases u with
      | up => exact .up upTx hs
      | down => simp only [hself]; exact .same _ (by simp [hs, NodeStatus.toUpdate])

theorem processLinkEvent_none {net : InMemoryNetwork} {s : State} {event : LinkEventPayload}
    (h : net.linksById.lookup event.linkId = none) : s.processLinkEvent net event = s := by
  rw [processLinkEvent, h]

theorem processLinkEvent_some {net : InMemoryNetwork} {s : State} {event : LinkEventPayload} {j : LinkIx}
    (h : net.linksById.lookup event.linkId = some j) :
    ∃ s₁, LinkChange s j event.status s₁ ∧ s.processLinkEvent net event = s₁.trackLinkEvent net event := by
  rw [processLinkEvent, h]
  exact ⟨_, linkChange_of_status s j event.status, rfl⟩

theorem processLinkEvent_cases (net : InMemoryNetwork) (s : State) (event : LinkEventPayload) :
    s.processLinkEvent net event = s ∨ ∃ j s₁, net.linksById.lookup event.linkId = some j ∧
      LinkChange s j event.status s₁ ∧ s.processLinkEvent net event = s₁.trackLinkEvent net event := by
  cases hlookup : net.linksById.lookup event.linkId with
  | none => exact .inl (processLinkEvent_none hlookup)
  | some j =>
    obtain ⟨s₁, hchange, heq⟩ := processLinkEvent_some hlookup
    exact .inr ⟨j, s₁, rfl, hchange, heq⟩

theorem processNodeEvent_none {net : InMemoryNetwork} {s : State} {event : NodeEventPayload}
    (h : net.nodesById.lookup event.nodeId = none) : s.processNodeEvent net event = s := by
  rw [processNodeEvent, h]

theorem processNodeEvent_some {net : InMemoryNetwork} {s : State} {event : NodeEventPayload} {i : NodeIx}
    (h : net.nodesById.lookup event.nodeId = some i) :
    ∃ s₁, NodeChange s i event.status s₁ ∧ s.processNodeEvent net event =
      (if event.clearBuffer then s₁.clearBuffer i else s₁).trackNodeEvent net event := by
  rw [processNodeEvent, h]
  exact ⟨_, nodeChange_of_status s i event.status, rfl⟩

theorem processNodeEvent_cases (net : InMemoryNetwork) (s : State) (event : NodeEventPayload) :
    s.processNodeEvent net event = s ∨ ∃ i s₁, net.nodesById.lookup event.nodeId = some i ∧
      NodeChange s i event.status s₁ ∧ s.processNodeEvent net event =
        (if event.clearBuffer then s₁.clearBuffer i else s₁).trackNodeEvent net event := by
  cases hlookup : net.nodesById.lookup event.nodeId with
  | none => exact .inl (processNodeEvent_none hlookup)
  | some i =>
    obtain ⟨s₁, hchange, heq⟩ := processNodeEvent_some hlookup
    exact .inr ⟨i, s₁, rfl, hchange, heq⟩

/-- What an event leaves as it is. -/
structure EventFrame (s s' : State) : Prop where
  now : s'.now = s.now
  handled : s'.handled = s.handled
  nodeTasks : s'.nodeTasks = s.nodeTasks
  linkTasks : s'.linkTasks = s.linkTasks
  forwarders : s'.forwarders = s.forwarders
  nextStay : s'.nextStay = s.nextStay
  events : s'.events = s.events
  generated : s'.generated = s.generated
  history : s'.history = s.history
  outboundBuffer : ∀ i, (s'.nodes i).outboundBuffer = (s.nodes i).outboundBuffer
  outbound : ∀ i, (s'.nodes i).outbound = (s.nodes i).outbound
  inbound : ∀ i, (s'.nodes i).inbound = (s.nodes i).inbound
  inTransit : ∀ j, (s'.links j).inTransit = (s.links j).inTransit
  outgoingQueue : ∀ j, (s'.links j).outgoingQueue = (s.links j).outgoingQueue
  pacer : ∀ j, (s'.links j).pacer = (s.links j).pacer

theorem EventFrame.refl (s : State) : EventFrame s s where
  now := rfl
  handled := rfl
  nodeTasks := rfl
  linkTasks := rfl
  forwarders := rfl
  nextStay := rfl
  events := rfl
  generated := rfl
  history := rfl
  outboundBuffer _ := rfl
  outbound _ := rfl
  inbound _ := rfl
  inTransit _ := rfl
  outgoingQueue _ := rfl
  pacer _ := rfl

theorem EventFrame.setLink {s s₁ : State} (h : EventFrame s s₁) (j : LinkIx) (status : LinkStatus) (lastDown : Option Nat)
    (oneshots : Oneshots) :
    EventFrame s { s₁.setLink j { s₁.links j with status, lastDown } with oneshots } :=
  { h with
    inTransit := fun j' => by by_cases hj : j' = j <;> simp [State.setLink, hj, h.inTransit]
    outgoingQueue := fun j' => by
      by_cases hj : j' = j <;> simp [State.setLink, hj, h.outgoingQueue]
    pacer := fun j' => by by_cases hj : j' = j <;> simp [State.setLink, hj, h.pacer] }

theorem EventFrame.setNode {s s₁ : State} (h : EventFrame s s₁) (i : NodeIx) (status : NodeStatus)
    (lastBufferClear : Option Nat) (oneshots : Oneshots) :
    EventFrame s { s₁.setNode i { s₁.nodes i with status, lastBufferClear } with oneshots } :=
  { h with
    outboundBuffer := fun i' => by
      by_cases hi : i' = i <;> simp [State.setNode, hi, h.outboundBuffer]
    outbound := fun i' => by by_cases hi : i' = i <;> simp [State.setNode, hi, h.outbound]
    inbound := fun i' => by by_cases hi : i' = i <;> simp [State.setNode, hi, h.inbound] }

theorem EventFrame.record {s s₁ : State} (h : EventFrame s s₁) (net : InMemoryNetwork) (kind : SimulationStepKind) :
    EventFrame s (s₁.record net kind) :=
  { h with }

theorem processLinkEvent_frame (net : InMemoryNetwork) (s : State) (event : LinkEventPayload) :
    EventFrame s (s.processLinkEvent net event) := by
  rcases processLinkEvent_cases net s event with heq | ⟨j, s₁, -, hchange, heq⟩
  · rw [heq]
    exact .refl s
  · rw [heq]
    refine EventFrame.record ?_ net _
    generalize event.status = status at hchange
    cases hchange with
    | same _ h => exact .refl s
    | down hup => exact (EventFrame.refl s).setLink j _ _ _
    | up upTx hdown => exact (EventFrame.refl s).setLink j _ _ _

theorem processNodeEvent_frame (net : InMemoryNetwork) (s : State) (event : NodeEventPayload) :
    EventFrame s (s.processNodeEvent net event) := by
  rcases processNodeEvent_cases net s event with heq | ⟨i, s₁, -, hchange, heq⟩
  · rw [heq]
    exact .refl s
  · rw [heq]
    refine EventFrame.record ?_ net _
    have h₁ : EventFrame s s₁ := by
      generalize event.status = status at hchange
      cases hchange with
      | same _ h => exact .refl s
      | down hup => exact (EventFrame.refl s).setNode i _ _ _
      | up upTx hdown => exact (EventFrame.refl s).setNode i _ _ _
    split_ifs
    · exact h₁.setNode i (s₁.nodes i).status (some s₁.now) s₁.oneshots
    · exact h₁

end State

/-! ### Invariants of runs -/

/-- The stretches of the machine: an event, an iteration of a link task, or a chain of effects. -/
inductive Stretch (net : InMemoryNetwork) (s : State) : Action → State → Prop
  | event (event : NetworkEvent) (events : List NetworkEvent) (h : s.events = event :: events)
      (hdue : net.start + event.relativeTime ≤ s.now) :
      Stretch net s .networkEvent ({ s with events }.processEvent net event)
  | link (j : LinkIx) (slot : Nat) (s' : State) (hj : j < net.links.length) (h : LinkEffect net j s s') :
      Stretch net s (.linkTask j slot) s'
  | effects (a : Action) (s' : State) (h : Effects net ⟨[], s⟩ ⟨[], s'⟩) : Stretch net s a s'

theorem InMemoryNetwork.step_cases {net : InMemoryNetwork} {s s' : State} {a : Action}
    (h : net.step s a = some s') : Stretch net s a s' := by
  cases a with
  | advance duration =>
    obtain rfl := Option.some.inj h
    exact .effects _ _ (.single (.advance s duration))
  | networkEvent =>
    rw [step] at h
    split at h
    · simp at h
    · rename_i event events hevents
      split_ifs at h with hdue
      obtain rfl := Option.some.inj h
      exact .event event events hevents hdue
  | trySend i transmit uuid draws =>
    obtain ⟨endpoint, hhost, heffects⟩ := State.trySend_effects h
    exact .effects _ _ (.head (.create [] s i endpoint transmit uuid hhost) heffects.effects)
  | pollRecv i metaLen =>
    obtain ⟨rest, heffects, -⟩ := State.pollRecv_effects h
    exact .effects _ _ (heffects.effects.tail (.abandon _ _ _ (List.nil_sublist _)))
  | nodeTask i rolls =>
    rw [step] at h
    split_ifs at h
    exact .effects _ _ (State.processBufferForNode_effects h).effects
  | linkTask j slot =>
    rw [step] at h
    split_ifs at h with hj
    exact .link j slot s' hj (State.processLinkQueue_effect h)
  | forwarder j draws =>
    rw [step] at h
    split_ifs at h
    exact .effects _ _ (State.forwardPacketsFromLinkToNode_effects h).effects

/-- What holds between the effects, whatever the running task holds. -/
structure Preserved (net : InMemoryNetwork) (I : Scene → Prop) : Prop where
  effect : ∀ σ σ', Effect net σ σ' → I σ → I σ'
  link : ∀ j s s', j < net.links.length → LinkEffect net j s s' → I ⟨[], s⟩ → I ⟨[], s'⟩
  linkEvent : ∀ s event, I ⟨[], s⟩ → I ⟨[], s.processLinkEvent net event⟩
  nodeEvent : ∀ s event, I ⟨[], s⟩ → I ⟨[], s.processNodeEvent net event⟩
  events : ∀ s events, I ⟨[], s⟩ → I ⟨[], { s with events }⟩

namespace Preserved
variable {net : InMemoryNetwork} {I : Scene → Prop} {s s' : State}

theorem event (hI : Preserved net I) (event : NetworkEvent) (events : List NetworkEvent) (h : I ⟨[], s⟩) :
    I ⟨[], { s with events }.processEvent net event⟩ := by
  unfold State.processEvent
  cases event.kind with
  | link payload => exact hI.linkEvent _ payload (hI.events s events h)
  | node payload => exact hI.nodeEvent _ payload (hI.events s events h)

theorem step (hI : Preserved net I) {a : Action} (hstep : net.step s a = some s') (h : I ⟨[], s⟩) : I ⟨[], s'⟩ := by
  cases InMemoryNetwork.step_cases hstep with
  | event event events => exact hI.event event events h
  | link j _ _ hj hlink => exact hI.link j s s' hj hlink h
  | effects _ _ heffects => exact Relation.ReflTransGen.preserves hI.effect heffects h

theorem run (hI : Preserved net I) {as : List Action} (hrun : net.machine.run s as = some s') (h : I ⟨[], s⟩) :
    I ⟨[], s'⟩ :=
  Machine.run_invariant (M := net.machine) (I := fun s => I ⟨[], s⟩) (fun _ _ _ h hstep => hI.step hstep h) h hrun

end Preserved

namespace InMemoryNetwork
variable {spec : NetworkSpec} {events : NetworkEvents} {net : InMemoryNetwork} {s₀ : State}
  {simulationStart start now : Nat} {disableTimeWarping : Bool}

theorem initializeNetwork_ok
    (h : initializeNetwork spec events simulationStart start now disableTimeWarping = .ok (net, s₀)) :
    buildNetwork spec simulationStart start = .ok net ∧
      s₀ = events.initialNodeEvents.foldl (fun s event => s.processNodeEvent net event)
        (events.initialLinkEvents.foldl (fun s event => s.processLinkEvent net event)
          (initialState net now events.sortedEvents)) := by
  unfold initializeNetwork at h
  dsimp only at h
  split_ifs at h
  -- what is left are the cases in which nothing was thrown
  any_goals cases h
  all_goals
    obtain ⟨net', hbuild, h⟩ := Except.bind_eq_ok.1 h
    obtain ⟨rfl, rfl⟩ := Prod.mk.inj (Except.pure_eq_ok.1 h)
    exact ⟨hbuild, rfl⟩

theorem buildNetwork_start (h : buildNetwork spec simulationStart start = .ok net) :
    net.simulationStart = simulationStart ∧ net.start = start := by
  obtain ⟨-, t₁, links, t₂, -, -, -, rfl⟩ := exists_of_buildNetwork h
  exact ⟨rfl, rfl⟩

/-- What holds of the initial state and the initial events preserve. -/
theorem initializeNetwork_induction {I : State → Prop}
    (h : initializeNetwork spec events simulationStart start now disableTimeWarping = .ok (net, s₀))
    (hinitial : I (initialState net now events.sortedEvents))
    (hlink : ∀ s, ∀ payload ∈ events.initialLinkEvents, I s → I (s.processLinkEvent net payload))
    (hnode : ∀ s, ∀ payload ∈ events.initialNodeEvents, I s → I (s.processNodeEvent net payload)) : I s₀ := by
  obtain ⟨-, rfl⟩ := initializeNetwork_ok h
  refine List.foldlRecOn _ _ (List.foldlRecOn _ _ hinitial ?_) ?_
  · exact fun s hs payload hpayload => hlink s payload hpayload hs
  · exact fun s hs payload hpayload => hnode s payload hpayload hs

end InMemoryNetwork

namespace Preserved
variable {net : InMemoryNetwork} {I : Scene → Prop} {s s₀ : State} {spec : NetworkSpec} {simulationStart start now : Nat}
  {disableTimeWarping : Bool}

theorem initialized {events : NetworkEvents} (hI : Preserved net I)
    (h : InMemoryNetwork.initializeNetwork spec events simulationStart start now disableTimeWarping = .ok (net, s₀))
    (h₀ : I ⟨[], InMemoryNetwork.initialState net now events.sortedEvents⟩) : I ⟨[], s₀⟩ := by
  refine InMemoryNetwork.initializeNetwork_induction (I := fun s => I ⟨[], s⟩) h h₀ ?_ ?_
  · exact fun s payload _ hs => hI.linkEvent s payload hs
  · exact fun s payload _ hs => hI.nodeEvent s payload hs

/-- What holds at the start and is preserved holds in every state reached. -/
theorem reaches {events : List NetworkEvent} (hI : Preserved net I)
    (h₀ : ∀ now events, net.simulationStart ≤ now → I ⟨[], InMemoryNetwork.initialState net now events⟩)
    (h : Reaches disableTimeWarping spec events net s) : I ⟨[], s⟩ := by
  obtain ⟨simulationStart, start, now, s₀, actions, hnow, -, hinit, hrun⟩ := h
  refine hI.run hrun (hI.initialized hinit (h₀ _ _ ?_))
  rw [(InMemoryNetwork.buildNetwork_start (InMemoryNetwork.initializeNetwork_ok hinit).1).1]
  exact hnow

end Preserved

theorem Reaches.run {net : InMemoryNetwork} {s s' : State} {spec : NetworkSpec} {events : List NetworkEvent}
    {disableTimeWarping : Bool} {as : List Action} (h : Reaches disableTimeWarping spec events net s)
    (hrun : net.machine.run s as = some s') : Reaches disableTimeWarping spec events net s' := by
  obtain ⟨simulationStart, start, now, s₀, actions, hsim, hstart, hinit, hrun₀⟩ := h
  refine ⟨simulationStart, start, now, s₀, actions ++ as, hsim, hstart, hinit, ?_⟩
  exact Machine.run_append_eq_some.2 ⟨s, hrun₀, hrun⟩
end QuicWorkbench
