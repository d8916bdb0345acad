import QuicWorkbench.Proofs.Fifo
import QuicWorkbench.Proofs.Replayable
import QuicWorkbench.Proofs.Whence

/-!
# Arrivals at hosts

What comes into the inbound queue of a host comes there at once, when a packet arrives at the host, and the log says so.
Nothing but a read takes it out again.
-/

namespace QuicWorkbench

/-- The packet has come to the host, and the log says so. -/
structure Arrived (net : InMemoryNetwork) (s : State) (i : NodeIx) (e : PrioritizedInTransitData) : Prop where
  logged : ⟨e.sent - net.simulationStart, .packetInNode (State.packetInNodeStep net i e.data false)⟩ ∈ s.log
  delay : e.delay = 0
  sent : e.sent ≤ s.now

/-- Everything in the inbound queues has come there. -/
def Announced (net : InMemoryNetwork) (s : State) : Prop := ∀ i, ∀ e ∈ (s.nodes i).inbound.queue, Arrived net s i e

/-- The log grows, and with it the inbound queues: what comes into them arrives. The sockets are not read. -/
structure Announces (net : InMemoryNetwork) (s s' : State) : Prop where
  now : s.now ≤ s'.now
  sockets : s'.sockets = s.sockets
  log : s.log ⊆ s'.log
  kept : ∀ i, (s.nodes i).inbound.queue ⊆ (s'.nodes i).inbound.queue
  inbound : ∀ i, ∀ e ∈ (s'.nodes i).inbound.queue, e ∈ (s.nodes i).inbound.queue ∨ Arrived net s' i e

theorem Arrived.mono {net : InMemoryNetwork} {s s' : State} {i : NodeIx} {e : PrioritizedInTransitData} (h : Arrived net s i e)
    (hlog : s.log ⊆ s'.log) (hnow : s.now ≤ s'.now) : Arrived net s' i e :=
  ⟨hlog h.logged, h.delay, h.sent.trans hnow⟩

namespace Announces
variable {net : InMemoryNetwork} {s s' s'' : State}

theorem announced (h : Announces net s s') (hs : Announced net s) : Announced net s' := fun i e he =>
  (h.inbound i e he).elim (fun hold => (hs i e hold).mono h.log h.now) id

theorem of_inbound (hnow : s.now ≤ s'.now) (hsockets : s'.sockets = s.sockets) (hlog : s.log ⊆ s'.log)
    (hinbound : ∀ i, (s'.nodes i).inbound.queue = (s.nodes i).inbound.queue) : Announces net s s' where
  now := hnow
  sockets := hsockets
  log := hlog
  kept i := hinbound i ▸ List.Subset.refl _
  inbound i _ he := .inl (hinbound i ▸ he)

theorem record (net : InMemoryNetwork) (s : State) (kind : SimulationStepKind) : Announces net s (s.record net kind) :=
  of_inbound (Nat.le_refl _) rfl (List.subset_append_left ..) fun _ => rfl

theorem trans (h : Announces net s s') (h' : Announces net s' s'') : Announces net s s'' where
  now := h.now.trans h'.now
  sockets := h'.sockets.trans h.sockets
  log := List.Subset.trans h.log h'.log
  kept i := List.Subset.trans (h.kept i) (h'.kept i)
  inbound i e he :=
    (h'.inbound i e he).elim (fun hold => (h.inbound i e hold).imp_right fun harrived => harrived.mono h'.log h'.now) .inr

theorem enqueueOutbound (net : InMemoryNetwork) (s : State) (i : NodeIx) (t : Nat) (d : InTransitData) :
    Announces net s (State.settled (s.enqueueOutbound net i t d)) := by
  unfold State.enqueueOutbound
  cases (s.nodes i).outboundBuffer.reserve d.packetSize with
  | none => exact record net s _
  | some buffer =>
    dsimp only
    split
    · refine of_inbound (Nat.le_refl _) rfl (List.Subset.refl _) fun i' => ?_
      rw [State.settled_ok, s.inbound_pushOutbound_accept i buffer d _ i']
    · refine of_inbound (Nat.le_refl _) rfl (List.Subset.refl _) fun i' => ?_
      rw [State.settled_error, s.inbound_accept i buffer d i']

theorem sendInbound (net : InMemoryNetwork) (s : State) (i : NodeIx) (d : InTransitData) (slot : Nat) :
    Announces net s ((s.trackPacketInNode net i d).sendInbound i d slot) := by
  have hqueue : ∀ i', (((s.trackPacketInNode net i d).sendInbound i d slot).nodes i').inbound.queue =
      if i' = i then MaxHeap.push slot ⟨d, s.now, 0⟩ (s.nodes i').inbound.queue else (s.nodes i').inbound.queue := fun i' => by
    by_cases hi : i' = i
    · subst hi
      simp [State.sendInbound, State.setNode, InboundQueue.send, State.trackPacketInNode, State.record]
    · simp [State.sendInbound, State.setNode, State.trackPacketInNode, State.record, hi]
  refine ⟨Nat.le_refl _, rfl, List.subset_append_left .., fun i' e he => ?_, fun i' e he => ?_⟩
  · rw [hqueue]
    split
    · exact MaxHeap.mem_push.2 (.inr he)
    · exact he
  · rw [hqueue] at he
    split at he
    · rename_i hi
      subst hi
      refine (MaxHeap.mem_push.1 he).symm.imp_right fun heq => ?_
      subst heq
      exact ⟨List.mem_append_right _ (List.mem_singleton_self _), rfl, Nat.le_refl _⟩
    · exact .inl he

theorem forward (net : InMemoryNetwork) (s : State) (i : NodeIx) (d : InTransitData) (draws : Draws) :
    Announces net s (State.settled (s.forward net i d draws)) := by
  unfold State.forward
  by_cases hdown : (s.nodes i).isDown
  · rw [if_pos hdown]
    exact record net s _
  rw [if_neg hdown]
  have hin : Announces net s (s.trackPacketInNode net i d) := record net s _
  dsimp only
  split_ifs
  · exact sendInbound net s i d _
  · exact hin.trans (record net _ _)
  · have hid : Announces net s ((s.trackPacketInNode net i d).newPacketId draws.uuid) :=
      hin.trans (of_inbound (Nat.le_refl _) rfl (List.Subset.refl _) fun _ => rfl)
    have hfirst := hid.trans (enqueueOutbound net _ i (s.trackPacketInNode net i d).now d)
    cases hresult : State.enqueueOutbound net ((s.trackPacketInNode net i d).newPacketId draws.uuid) i
        (s.trackPacketInNode net i d).now d with
    | error s' =>
      rw [hresult] at hfirst
      exact hfirst
    | ok s' =>
      rw [hresult] at hfirst
      simp only [Bind.bind, Except.bind, State.trackInjectedFailures_duplicate]
      exact (hfirst.trans (record net s' _)).trans (enqueueOutbound net _ i _ _)
  · exact hin.trans (enqueueOutbound net _ i _ d)

theorem forwardDelivered (net : InMemoryNetwork) (j : LinkIx) (delivered : List DeliveredTransmit) (draws : Nat → Draws)
    (s : State) : Announces net s (State.settled (State.forwardDelivered net j delivered draws s)) := by
  induction delivered generalizing draws s with
  | nil => exact of_inbound (Nat.le_refl _) rfl (List.Subset.refl _) fun _ => rfl
  | cons x delivered ih =>
    rw [State.forwardDelivered]
    split_ifs
    · exact (record net s _).trans (ih _ _)
    cases net.nodesByAddr.lookup (net.link j).target with
    | none => exact of_inbound (Nat.le_refl _) rfl (List.Subset.refl _) fun _ => rfl
    | some i =>
      have hfirst := forward net s i x.data (draws 0)
      cases hresult : s.forward net i x.data (draws 0) with
      | error s' =>
        rw [hresult] at hfirst
        simp only [hresult, Bind.bind, Except.bind]
        exact hfirst
      | ok s' =>
        rw [hresult] at hfirst
        simp only [hresult, Bind.bind, Except.bind]
        exact hfirst.trans (ih _ s')

theorem trySend {i : NodeIx} {transmit : OwnedTransmit} {uuid : Uuid} {draws : Draws}
    (h : s.trySend net i transmit uuid draws = some s') : Announces net s s' := by
  unfold State.trySend at h
  split at h
  · simp at h
  · split_ifs at h
    obtain rfl := Option.some.inj h
    have hnext : Announces net s { s.newPacketId uuid with nextTransmitNumber := s.nextTransmitNumber + 1 } :=
      of_inbound (Nat.le_refl _) rfl (List.Subset.refl _) fun _ => rfl
    exact hnext.trans (forward net _ i _ draws)

theorem sockets_processEvent (net : InMemoryNetwork) (s : State) (event : NetworkEvent) :
    (s.processEvent net event).sockets = s.sockets := by
  unfold State.processEvent
  cases event.kind with
  | link payload =>
    dsimp only
    unfold State.processLinkEvent
    cases net.linksById.lookup payload.linkId with
    | none => rfl
    | some j => cases payload.status <;> rfl
  | node payload =>
    dsimp only
    unfold State.processNodeEvent
    cases net.nodesById.lookup payload.nodeId with
    | none => rfl
    | some i => cases payload.status <;> cases payload.clearBuffer <;> rfl

theorem processEvent (net : InMemoryNetwork) (s : State) (event : NetworkEvent) :
    Announces net s (s.processEvent net event) := by
  have hs := Stretches.processEvent net s event
  obtain ⟨kinds, hlog, -⟩ := hs.log
  refine of_inbound (Nat.le_of_eq hs.now.symm) (sockets_processEvent net s event) (hlog ▸ List.subset_append_left ..) fun i => ?_
  unfold State.processEvent
  cases event.kind with
  | link payload => rw [(State.processLinkEvent_frame net s payload).inbound]
  | node payload => rw [(State.processNodeEvent_frame net s payload).inbound]

theorem sockets_pushCopies (net : InMemoryNetwork) (i : NodeIx) (packet : BufferedPacket) (candidates links : List LinkIx)
    (rolls : Nat → Roll × Roll) (s : State) : (State.pushCopies net i packet candidates links rolls s).sockets = s.sockets := by
  induction links generalizing rolls s with
  | nil => rfl
  | cons j links ih =>
    rw [State.pushCopies, ih]
    rfl

theorem sockets_linkEffect {j : LinkIx} (h : LinkEffect net j s s') : s'.sockets = s.sockets := by
  cases h with
  | park p s₁ task hp => obtain ⟨queue, rfl⟩ := hp.eq_dequeue; rfl
  | discard p p' s₁ hp => obtain ⟨queue, rfl⟩ := hp.eq_dequeue; rfl
  | clear p p' s₁ hp => obtain ⟨queue, rfl⟩ := hp.eq_dequeue; rfl
  | send p p' s₁ data slot hp => obtain ⟨queue, rfl⟩ := hp.eq_dequeue; rfl
  | panicSend p p' s₁ hp => obtain ⟨queue, rfl⟩ := hp.eq_dequeue; rfl

theorem step {a : Action} (h : net.step s a = some s') (ha : ∀ i metaLen, a ≠ .pollRecv i metaLen) : Announces net s s' := by
  have hsame : ∀ {s' : State}, s'.now = s.now → s'.sockets = s.sockets → s'.log = s.log →
      (∀ i, (s'.nodes i).inbound = (s.nodes i).inbound) → Announces net s s' := fun hnow hsockets hlog hinbound =>
    of_inbound (Nat.le_of_eq hnow.symm) hsockets (hlog ▸ List.Subset.refl _) fun i => by rw [hinbound]
  cases a with
  | advance duration =>
    obtain rfl := Option.some.inj h
    exact of_inbound (Nat.le_add_right ..) rfl (List.Subset.refl _) fun _ => rfl
  | networkEvent =>
    rw [InMemoryNetwork.step] at h
    split at h
    · simp at h
    · rename_i event events hevents
      split_ifs at h
      obtain rfl := Option.some.inj h
      have htake : Announces net s { s with events } := hsame rfl rfl rfl fun _ => rfl
      exact htake.trans (processEvent net { s with events } event)
  | trySend i transmit uuid draws => exact trySend h
  | pollRecv i metaLen => exact absurd rfl (ha i metaLen)
  | nodeTask i rolls =>
    rw [InMemoryNetwork.step] at h
    split_ifs at h
    have hs := Stretches.processBufferForNode h
    obtain ⟨kinds, hlog, -⟩ := hs.log
    obtain ⟨packet, outbound, -, hnext, htakes⟩ := State.processBufferForNode_takes h
    have hsockets : s'.sockets = s.sockets := by
      cases htakes with
      | panic => rfl
      | unroutable => rfl
      | offer links => exact sockets_pushCopies ..
      | panicOffer links done rest j => exact sockets_pushCopies ..
    refine of_inbound (Nat.le_of_eq hs.now.symm) hsockets (hlog ▸ List.subset_append_left ..) fun i' => ?_
    cases htakes with
    | panic => exact (NothingNew.endNodeTask s i _).inbound i'
    | unroutable => exact (NothingNew.endNodeTask s i _).inbound i'
    | offer links => exact (NothingNew.offer hnext).inbound i'
    | panicOffer links done rest j => exact ((NothingNew.offer hnext).trans (.endNodeTask _ i .panicked)).inbound i'
  | linkTask j slot =>
    rw [InMemoryNetwork.step] at h
    split_ifs at h
    have he := State.processLinkQueue_effect h
    have hnow : s'.now = s.now := by
      rcases he.moves with ⟨p, s₁, m, d', -, -, -, hnow, -⟩ | ⟨-, hnow, -⟩
      · exact hnow
      · exact hnow
    exact of_inbound (Nat.le_of_eq hnow.symm) (sockets_linkEffect he) he.logs.grows.subset fun i => by rw [he.inbound]
  | forwarder j draws =>
    rw [InMemoryNetwork.step] at h
    split_ifs at h
    unfold State.forwardPacketsFromLinkToNode at h
    split at h
    · simp at h
    · rename_i delivery htask
      dsimp only at h
      generalize delivery.poll (s.links j).inTransit s.now j = result at h
      obtain ⟨result, delivery', q⟩ := result
      cases result with
      | pending source =>
        obtain rfl := Option.some.inj h
        exact hsame rfl rfl rfl fun _ => rfl
      | ready delivered =>
        have hforward := forwardDelivered net j delivered draws
          ((s.setInTransit j q).setForwarder j (.awaiting (.new usizeMax)))
        have htake : Announces net s ((s.setInTransit j q).setForwarder j (.awaiting (.new usizeMax))) :=
          hsame rfl rfl rfl fun _ => rfl
        simp only at h
        split at h
        · rename_i s₁ hresult
          rw [hresult] at hforward
          obtain rfl := Option.some.inj h
          exact htake.trans hforward
        · rename_i s₁ hresult
          rw [hresult] at hforward
          obtain rfl := Option.some.inj h
          exact (htake.trans hforward).trans (of_inbound (Nat.le_refl _) rfl (List.Subset.refl _) fun _ => rfl)

end Announces

namespace Announced
variable {net : InMemoryNetwork} {s s' : State}

theorem of_subset (h : Announced net s) (hnow : s.now = s'.now) (hlog : s.log ⊆ s'.log)
    (hinbound : ∀ i, (s'.nodes i).inbound.queue ⊆ (s.nodes i).inbound.queue) : Announced net s' := fun i e he =>
  (h i e (hinbound i he)).mono hlog (Nat.le_of_eq hnow)

theorem pollRecv {i : NodeIx} {metaLen : Nat} (hs : Announced net s) (h : s.pollRecv net i metaLen = some s') :
    Announced net s' := by
  unfold State.pollRecv at h
  split at h
  · simp at h
  · dsimp only at h
    obtain ⟨batch, hperm, -⟩ := ((s.sockets i).getD (.new metaLen)).poll_takes (s.nodes i).inbound s.now i
    generalize ((s.sockets i).getD (.new metaLen)).poll (s.nodes i).inbound s.now i = result at h hperm
    obtain ⟨result, delivery, q⟩ := result
    have htake : Announced net { s.setNode i { s.nodes i with inbound := q } with
        sockets := Function.update s.sockets i (some delivery) } := by
      refine hs.of_subset rfl (List.Subset.refl _) fun i' e he => ?_
      by_cases hi : i' = i
      · subst hi
        refine hperm.mem_iff.2 (List.mem_append_right _ ?_)
        simpa [State.setNode] using he
      · simpa [State.setNode, hi] using he
    cases result with
    | pending source =>
      obtain rfl := Option.some.inj h
      exact htake
    | ready delivered =>
      obtain rfl := Option.some.inj h
      exact List.foldlRecOn (motive := Announced net) _ _ htake fun s' hs' x _ => (Announces.record net s' _).announced hs'

theorem step {a : Action} (hs : Announced net s) (h : net.step s a = some s') : Announced net s' := by
  by_cases ha : ∃ i metaLen, a = .pollRecv i metaLen
  · obtain ⟨i, metaLen, rfl⟩ := ha
    exact hs.pollRecv h
  · exact (Announces.step h fun i metaLen heq => ha ⟨i, metaLen, heq⟩).announced hs

theorem run {as : List Action} (h : Announced net s) (hrun : net.machine.run s as = some s') : Announced net s' :=
  Machine.run_invariant (M := net.machine) (I := Announced net) (fun _ _ _ h hstep => h.step hstep) h hrun

theorem initialized {spec : NetworkSpec} {networkEvents : NetworkEvents} {s₀ : State} {simulationStart start now : Nat}
    {disableTimeWarping : Bool}
    (hinit : InMemoryNetwork.initializeNetwork spec networkEvents simulationStart start now disableTimeWarping = .ok (net, s₀)) :
    Announced net s₀ := by
  have hevent : ∀ s event, Announced net s → Announced net (State.processEvent net s event) := fun s event h =>
    (Announces.processEvent net s event).announced h
  refine InMemoryNetwork.initializeNetwork_induction (I := Announced net) hinit (fun i e he => ?_)
    (fun s payload _ hs => hevent s ⟨0, .link payload⟩ hs) (fun s payload _ hs => hevent s ⟨0, .node payload⟩ hs)
  simp [InMemoryNetwork.initialState, NodeState.new, InboundQueue.new] at he

theorem sockets_initialized {spec : NetworkSpec} {networkEvents : NetworkEvents} {s₀ : State} {simulationStart start now : Nat}
    {disableTimeWarping : Bool}
    (hinit : InMemoryNetwork.initializeNetwork spec networkEvents simulationStart start now disableTimeWarping = .ok (net, s₀))
    (i : NodeIx) : s₀.sockets i = none := by
  refine InMemoryNetwork.initializeNetwork_induction (I := fun s => s.sockets i = none) hinit rfl (fun s payload _ hs => ?_)
    fun s payload _ hs => ?_
  · exact (congrFun (Announces.sockets_processEvent net s ⟨0, .link payload⟩) i).trans hs
  · exact (congrFun (Announces.sockets_processEvent net s ⟨0, .node payload⟩) i).trans hs

end Announced
end QuicWorkbench
