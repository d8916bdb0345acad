import QuicWorkbench.Proofs.Readiness

/-!
# The log of a run

What each stretch appends to the log, and when. The clock never runs backwards, so the log is sorted:
the verifier replays the steps in the order in which they were recorded.
-/

namespace QuicWorkbench

/-- The steps that are recorded while a packet is forwarded, dropped or read. -/
def SimulationStepKind.isForwarding : SimulationStepKind → Bool
  | .packetInNode _ | .packetDropped _ | .packetLostInTransit _ | .packetDuplicated _
  | .packetDeliveredToApplication _ => true
  | .packetExtraDelay _ | .packetCongestionEvent _ | .packetInTransit _ | .networkEvent _ => false

/-- The step that `NetworkLink::send` records. -/
def OutgoingPacket.inTransitStep (net : InMemoryNetwork) (j : LinkIx) (p : OutgoingPacket) : PacketInTransit :=
  { packetId := p.data.id, nodeId := (net.node p.srcNode).id, linkId := (net.link j).id }

/-- At most one step is appended to the log, of a kind that satisfies `K`. -/
inductive Logs (net : InMemoryNetwork) (K : SimulationStepKind → Prop) (s s' : State) : Prop
  | same (h : s'.log = s.log)
  | step (kind : SimulationStepKind) (hkind : K kind)
      (h : s'.log = s.log ++ [{ relativeTime := s.now - net.simulationStart, kind }])

section
variable {net : InMemoryNetwork} {K K' : SimulationStepKind → Prop} {s s' : State}

theorem Logs.mono (hK : ∀ kind, K kind → K' kind) (h : Logs net K s s') : Logs net K' s s' := by
  cases h with
  | same h => exact .same h
  | step kind hkind h => exact .step kind (hK kind hkind) h

theorem Effect.logs {σ σ' : Scene} (h : Effect net σ σ') : Logs net (fun kind => kind.isForwarding) σ.state σ'.state := by
  cases h with
  | dropOnArrival h s p i d => exact .step _ rfl rfl
  | enter h s p i d => exact .step _ rfl rfl
  | loseInTransit h s j sent d => exact .step _ rfl rfl
  | dropRandomly h s i d => exact .step _ rfl rfl
  | introduce h s i d => exact .step _ rfl rfl
  | dropBecauseBufferFull h s i d => exact .step _ rfl rfl
  | read h s i d => exact .step _ rfl rfl
  | offer h s i packet outbound links rolls =>
    rw [State.pushCopies_eq]
    exact .same rfl
  | panicOffer h s i packet outbound links done rest j rolls =>
    rw [State.pushCopies_eq]
    exact .same rfl
  | advance => exact .same rfl
  | create => exact .same rfl
  | abandon => exact .same rfl
  | sendInbound => exact .same rfl
  | duplicate => exact .same rfl
  | accept => exact .same rfl
  | acceptInVain => exact .same rfl
  | takeInTransit => exact .same rfl
  | panicForwarder => exact .same rfl
  | takeInbound => exact .same rfl
  | endNodeTask => exact .same rfl

theorem LinkEffect.logs {j : LinkIx} (h : LinkEffect net j s s') :
    Logs net (fun kind => kind.isForwarding ∨ ∃ p p' s₁, Picks j s p s₁ (.ready p') ∧ s.pending p ∧
      kind = .packetInTransit (p.inTransitStep net j)) s s' := by
  cases h with
  | park p s₁ task hp =>
    obtain ⟨queue, rfl⟩ := hp.eq_dequeue
    exact .same rfl
  | discard p p' s₁ hp =>
    obtain ⟨queue, rfl⟩ := hp.eq_dequeue
    exact .same rfl
  | clear p p' s₁ hp =>
    obtain ⟨queue, rfl⟩ := hp.eq_dequeue
    exact .step _ (.inl rfl) rfl
  | send p p' s₁ data slot hp hhandled hcleared hsane hdata =>
    have hpending : s.pending p := by simp [State.pending, hhandled, hcleared]
    refine .step _ (.inr ⟨p, p', s₁, hp, hpending, rfl⟩) ?_
    obtain ⟨links, rfl⟩ := hp.ready
    obtain ⟨queue, rfl⟩ := hp.eq_dequeue
    have hid := id_applyCongestion hdata
    simp only at hid
    simp [State.setLinkTask, State.transmit, State.observe, State.setNode, State.setLink, State.trackPacketInTransit,
      State.record, State.setHandled, State.dequeue, OutgoingPacket.inTransitStep, hid]
  | panicSend p p' s₁ hp =>
    obtain ⟨queue, rfl⟩ := hp.eq_dequeue
    exact .same rfl

theorem State.linkEvent_logs (net : InMemoryNetwork) (s : State) (event : LinkEventPayload) :
    Logs net (fun kind => kind = .networkEvent { link := some event, node := none } ∧
      (net.linksById.lookup event.linkId).isSome) s (s.processLinkEvent net event) := by
  rcases processLinkEvent_cases net s event with heq | ⟨j, s₁, hlookup, hchange, heq⟩
  · rw [heq]
    exact .same rfl
  · rw [heq]
    refine .step _ ⟨rfl, by simp [hlookup]⟩ ?_
    generalize event.status = status at hchange
    cases hchange <;> rfl

theorem State.nodeEvent_logs (net : InMemoryNetwork) (s : State) (event : NodeEventPayload) :
    Logs net (fun kind => kind = .networkEvent { link := none, node := some event } ∧
      (net.nodesById.lookup event.nodeId).isSome) s (s.processNodeEvent net event) := by
  rcases processNodeEvent_cases net s event with heq | ⟨i, s₁, hlookup, hchange, heq⟩
  · rw [heq]
    exact .same rfl
  · rw [heq]
    refine .step _ ⟨rfl, by simp [hlookup]⟩ ?_
    generalize event.status = status at hchange
    cases hchange <;> split_ifs <;> rfl

end

/-! ### The events that are left -/

theorem Effect.events {net : InMemoryNetwork} {σ σ' : Scene} (h : Effect net σ σ') : σ'.state.events = σ.state.events := by
  cases h with
  | offer h s i packet outbound links rolls =>
    rw [State.pushCopies_eq]
    rfl
  | panicOffer h s i packet outbound links done rest j rolls =>
    rw [State.pushCopies_eq]
    rfl
  | _ => rfl

theorem LinkEffect.events {net : InMemoryNetwork} {s s' : State} {j : LinkIx} (h : LinkEffect net j s s') :
    s'.events = s.events := by
  cases h with
  | park p s₁ task hp => obtain ⟨queue, rfl⟩ := hp.eq_dequeue; rfl
  | discard p p' s₁ hp => obtain ⟨queue, rfl⟩ := hp.eq_dequeue; rfl
  | clear p p' s₁ hp => obtain ⟨queue, rfl⟩ := hp.eq_dequeue; rfl
  | send p p' s₁ data slot hp => obtain ⟨queue, rfl⟩ := hp.eq_dequeue; rfl
  | panicSend p p' s₁ hp => obtain ⟨queue, rfl⟩ := hp.eq_dequeue; rfl

theorem InMemoryNetwork.events_step {net : InMemoryNetwork} {s s' : State} {a : Action} (h : net.step s a = some s') :
    ∀ e ∈ s'.events, e ∈ s.events := by
  cases step_cases h with
  | event event events hevents =>
    intro e he
    rw [hevents]
    unfold State.processEvent at he
    cases hkind : event.kind with
    | link payload =>
      rw [hkind] at he
      rw [(State.processLinkEvent_frame net { s with events } payload).events] at he
      exact List.mem_cons_of_mem _ he
    | node payload =>
      rw [hkind] at he
      rw [(State.processNodeEvent_frame net { s with events } payload).events] at he
      exact List.mem_cons_of_mem _ he
  | link j slot _ hj he => exact fun e hmem => he.events ▸ hmem
  | effects _ _ he =>
    have heq : s'.events = s.events := Relation.ReflTransGen.preserves (I := fun σ => σ.state.events = s.events)
      (fun _ _ he h => he.events.trans h) he rfl
    exact fun e hmem => heq ▸ hmem

/-! ### Sorted logs -/

structure LogInv (net : InMemoryNetwork) (s : State) : Prop where
  past : ∀ step ∈ s.log, step.relativeTime ≤ s.now - net.simulationStart
  sorted : s.log.Pairwise fun a b => a.relativeTime ≤ b.relativeTime

namespace LogInv
variable {net : InMemoryNetwork} {s s' : State} {K : SimulationStepKind → Prop}

theorem logs (h : LogInv net s) (hlogs : Logs net K s s') (hnow : s.now ≤ s'.now) : LogInv net s' := by
  have hpast : s.now - net.simulationStart ≤ s'.now - net.simulationStart := Nat.sub_le_sub_right hnow _
  cases hlogs with
  | same heq =>
    exact ⟨fun step hstep => (h.past step (heq ▸ hstep)).trans hpast, heq ▸ h.sorted⟩
  | step kind _ heq =>
    refine ⟨fun step hstep => ?_, ?_⟩
    · rw [heq] at hstep
      rcases List.mem_append.1 hstep with hstep | hstep
      · exact (h.past step hstep).trans hpast
      · rw [List.mem_singleton.1 hstep]
        exact hpast
    · rw [heq, List.pairwise_append]
      refine ⟨h.sorted, List.pairwise_singleton .., fun a ha b hb => ?_⟩
      rw [List.mem_singleton.1 hb]
      exact h.past a ha

theorem preserved (net : InMemoryNetwork) : Preserved net fun σ => LogInv net σ.state where
  effect _ _ he h := h.logs he.logs he.linkFrame.now
  link _ _ _ _ he h := h.logs he.logs he.frame.now.ge
  linkEvent s event h := h.logs (s.linkEvent_logs net event) (s.processLinkEvent_frame net event).now.ge
  nodeEvent s event h := h.logs (s.nodeEvent_logs net event) (s.processNodeEvent_frame net event).now.ge
  events _ _ h := ⟨h.past, h.sorted⟩

theorem initial (net : InMemoryNetwork) (now : Nat) (events : List NetworkEvent) :
    LogInv net (net.initialState now events) :=
  ⟨by simp [InMemoryNetwork.initialState], List.Pairwise.nil⟩

theorem of_run {spec : NetworkSpec} {events : NetworkEvents} {s₀ : State} {simulationStart start now : Nat}
    {disableTimeWarping : Bool} {actions : List Action} (hinit : InMemoryNetwork.initializeNetwork spec events
      simulationStart start now disableTimeWarping = .ok (net, s₀))
    (hrun : net.machine.run s₀ actions = some s) : LogInv net s :=
  (preserved net).run hrun ((preserved net).initialized hinit (initial net _ _))

/-- The verifier's sort leaves the log as it is. -/
theorem insertionSort_eq (h : LogInv net s) : s.log.insertionSort (fun a b => a.relativeTime ≤ b.relativeTime) = s.log :=
  h.sorted.insertionSort_eq

end LogInv

end QuicWorkbench
