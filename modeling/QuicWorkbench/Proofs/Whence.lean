import QuicWorkbench.Proofs.Accounted

/-!
# Where packets come from in an effect

For each kind of effect, where a packet was that is at a place after it. Only the packet that the running task
holds next changes its place, and packets that are taken up from a queue keep theirs.
-/

namespace QuicWorkbench

namespace Scene.At
variable {s s' : State} {held held' hs : List (Place × InTransitData)} {b : Bool} {p q : Place} {d d' : InTransitData}
  {i : NodeIx}

theorem of_nothingNew (h : At ⟨held', s'⟩ b p d) (hq : NothingNew s s') (hheld : held' ⊆ held) : At ⟨held, s⟩ b p d := by
  cases b with
  | true =>
    cases h with
    | held hx => exact .held (hheld hx)
  | false => exact hq.at_false h

theorem cons_cases {x : Place × InTransitData} (h : At ⟨x :: hs, s⟩ b p d) : x = (p, d) ∨ At ⟨hs, s⟩ b p d := by
  cases h with
  | held hx =>
    rcases List.mem_cons.1 hx with heq | hx
    · exact .inl heq.symm
    · exact .inr (.held hx)
  | inTransit he => exact .inr (.inTransit he)
  | inbound he => exact .inr (.inbound he)
  | stay hacc hun => exact .inr (.stay hacc hun)

theorem cons (x : Place × InTransitData) (h : At ⟨hs, s⟩ b p d) : At ⟨x :: hs, s⟩ b p d :=
  h.of_nothingNew (.refl s) fun _ hx => List.mem_cons_of_mem _ hx

theorem of_sendInbound {slot : Nat} (h : At ⟨hs, s.sendInbound i d slot⟩ b q d') :
    At ⟨hs, s⟩ b q d' ∨ q = .inbound i ∧ d' = d := by
  cases h with
  | held hx => exact .inl (.held hx)
  | inTransit he => exact .inl (.inTransit he)
  | stay hacc hun => exact .inl (.stay hacc hun)
  | @inbound i' e he =>
    by_cases hi : i' = i
    · subst hi
      have he : e ∈ MaxHeap.push slot ⟨d, s.now, 0⟩ (s.nodes i').inbound.queue := by
        simpa [State.sendInbound, State.setNode, InboundQueue.send] using he
      rcases MaxHeap.mem_push.1 he with rfl | he
      · exact .inr ⟨rfl, rfl⟩
      · exact .inl (.inbound he)
    · exact .inl (.inbound (by simpa [State.sendInbound, State.setNode, hi] using he))

theorem of_accepted {k : Nat} (h : At ⟨hs, s'⟩ b q d') (hhistory : s'.history = s.history ++ [.accepted k i d])
    (hlinks : s'.links = s.links) (hinbound : ∀ i', (s'.nodes i').inbound = (s.nodes i').inbound) :
    At ⟨hs, s⟩ b q d' ∨ q = .stay k i ∧ d' = d := by
  cases h with
  | held hx => exact .inl (.held hx)
  | inTransit he => exact .inl (.inTransit (hlinks ▸ he))
  | inbound he => exact .inl (.inbound (hinbound _ ▸ he))
  | stay hacc hun =>
    rw [show (Scene.mk hs s').state.history = s'.history from rfl, hhistory] at hacc hun
    rcases List.mem_append.1 hacc with hacc | hacc
    · refine .inl (.stay hacc fun hk => hun ?_)
      rw [handledStays_snoc]
      exact List.mem_append_left _ hk
    · obtain ⟨rfl, rfl, rfl⟩ := Observation.accepted.inj (List.mem_singleton.1 hacc)
      exact .inr ⟨rfl, rfl⟩

theorem of_takeInTransit {j : LinkIx} {queue : InboundQueue} {delivery : NextPacketDelivery}
    {batch : List PrioritizedInTransitData} (hperm : (s.links j).inTransit.queue.Perm (batch ++ queue.queue))
    (h : At ⟨batch.map (·.onLink j) ++ held, (s.setInTransit j queue).setForwarder j (.awaiting delivery)⟩ b p d) :
    ∃ b', At ⟨held, s⟩ b' p d := by
  cases h with
  | held hx =>
    rcases List.mem_append.1 hx with hx | hx
    · obtain ⟨e, he, heq⟩ := List.mem_map.1 hx
      obtain ⟨rfl, rfl⟩ := Prod.mk.inj heq
      exact ⟨false, .inTransit (hperm.mem_iff.2 (List.mem_append_left _ he))⟩
    · exact ⟨true, .held hx⟩
  | @inTransit j' e he =>
    refine ⟨false, .inTransit ?_⟩
    by_cases hj : j' = j
    · subst hj
      refine hperm.mem_iff.2 (List.mem_append_right _ ?_)
      simpa [State.setInTransit, State.setForwarder, State.setLink] using he
    · simpa [State.setInTransit, State.setForwarder, State.setLink, hj] using he
  | inbound he => exact ⟨false, .inbound he⟩
  | stay hacc hun => exact ⟨false, .stay hacc hun⟩

theorem of_takeInbound {queue : InboundQueue} {delivery : NextPacketDelivery} {batch : List PrioritizedInTransitData}
    (hperm : (s.nodes i).inbound.queue.Perm (batch ++ queue.queue))
    (h : At ⟨batch.map (·.atHost i) ++ held, { s.setNode i { s.nodes i with inbound := queue } with
      sockets := Function.update s.sockets i (some delivery) }⟩ b p d) : ∃ b', At ⟨held, s⟩ b' p d := by
  cases h with
  | held hx =>
    rcases List.mem_append.1 hx with hx | hx
    · obtain ⟨e, he, heq⟩ := List.mem_map.1 hx
      obtain ⟨rfl, rfl⟩ := Prod.mk.inj heq
      exact ⟨false, .inbound (hperm.mem_iff.2 (List.mem_append_left _ he))⟩
    · exact ⟨true, .held hx⟩
  | inTransit he => exact ⟨false, .inTransit he⟩
  | @inbound i' e he =>
    refine ⟨false, .inbound ?_⟩
    by_cases hi : i' = i
    · subst hi
      refine hperm.mem_iff.2 (List.mem_append_right _ ?_)
      simpa [State.setNode] using he
    · simpa [State.setNode, hi] using he
  | stay hacc hun => exact ⟨false, .stay hacc hun⟩

end Scene.At

/-- A link's task has sent the packet of a stay: it is on the link, and no longer at the stay. -/
structure SentOn (net : InMemoryNetwork) (j : LinkIx) (s s' : State) (d d' : InTransitData) (delay : Nat) : Prop where
  atPlaces : ∀ b p x, Scene.At ⟨[], s'⟩ b p x → Scene.At ⟨[], s⟩ b p x ∨ p = .transit j s.now ∧ x = d'
  queues : ∀ j', ∀ e ∈ (s'.links j').inTransit.queue, e ∈ (s.links j').inTransit.queue ∨ j' = j ∧ e = ⟨d', s.now, delay⟩
  marked : ∃ ecn, d' = { d with transmit := { d.transmit with ecn } }

theorem LinkEffect.moves {net : InMemoryNetwork} {s s' : State} {j : LinkIx} (he : LinkEffect net j s s') :
    (∃ p s₁ m d', Picks j s p s₁ m ∧ s.handled p.stay = false ∧
        SentOn net j s s' p.data d' ((net.link j).delay + p.anomalies.extraDelay) ∧ s'.now = s.now ∧
        handledStays s'.history = handledStays s.history ++ [p.stay] ∧
        s'.log = s.log ++ [⟨s.now - net.simulationStart,
          .packetInTransit ⟨d'.id, (net.node p.srcNode).id, (net.link j).id⟩⟩]) ∨
      NothingNew s s' ∧ s'.now = s.now ∧ (s'.log = s.log ∨ ∃ p s₁ m, Picks j s p s₁ m ∧ s.handled p.stay = false ∧
        handledStays s'.history = handledStays s.history ++ [p.stay] ∧ s'.log = s.log ++ [⟨s.now - net.simulationStart,
          .packetDropped ⟨p.data.id, (net.node p.srcNode).id, .bufferCleared⟩⟩]) := by
  have hnew := he.nothingNew
  have hinbound := he.inbound
  cases he with
  | park p s₁ task hp =>
    obtain ⟨queue, rfl⟩ := hp.eq_dequeue
    exact .inr ⟨hnew (.inl rfl), rfl, .inl rfl⟩
  | discard p p' s₁ hp hhandled =>
    obtain ⟨queue, rfl⟩ := hp.eq_dequeue
    exact .inr ⟨hnew (.inr ⟨.discarded j p', rfl, rfl⟩), rfl, .inl rfl⟩
  | panicSend p p' s₁ hp hun hcleared hpanic =>
    obtain ⟨queue, rfl⟩ := hp.eq_dequeue
    exact .inr ⟨hnew (.inr ⟨.sendPanicked j p', rfl, rfl⟩), rfl, .inl rfl⟩
  | clear p p' s₁ hp hun hcleared =>
    obtain ⟨links, rfl⟩ := hp.ready
    have hpick := hp
    obtain ⟨queue, rfl⟩ := hp.eq_dequeue
    refine .inr ⟨hnew (.inr ⟨.cleared j { p with preferredLinks := links }, rfl, rfl⟩), rfl, .inr ⟨p, _, _, hpick, hun, ?_, rfl⟩⟩
    exact handledStays_snoc ..
  | send p p' s₁ data slot hp hun hcleared hsane hdata =>
    have hpick := hp
    obtain ⟨queue, rfl⟩ := hp.eq_dequeue
    obtain ⟨links, rfl⟩ := hp.ready
    obtain ⟨ecn, rfl⟩ := exists_ecn_of_applyCongestion hdata
    have hqueue : ∀ j' e, e ∈ ((State.setLinkTask (State.transmit net ((s.dequeue j queue).setHandled p.stay) j
        { p with preferredLinks := links, data := { p.data with transmit := { p.data.transmit with ecn } } } slot) j
        .next).links j').inTransit.queue → e ∈ (s.links j').inTransit.queue ∨ j' = j ∧
          e = ⟨{ p.data with transmit := { p.data.transmit with ecn } }, s.now,
            (net.link j).delay + p.anomalies.extraDelay⟩ := fun j' e he => by
      by_cases hjj : j' = j
      · subst hjj
        have he : e ∈ MaxHeap.push slot ⟨{ p.data with transmit := { p.data.transmit with ecn } }, s.now,
            (net.link j').delay + p.anomalies.extraDelay⟩ (s.links j').inTransit.queue := by
          simpa [State.transmit, State.setLinkTask, State.observe, State.setNode, State.setLink, State.setHandled,
            State.dequeue, State.trackPacketInTransit, State.record, InboundQueue.send] using he
        rcases MaxHeap.mem_push.1 he with rfl | he
        · exact .inr ⟨rfl, rfl⟩
        · exact .inl he
      · refine .inl ?_
        simpa [State.transmit, State.setLinkTask, State.observe, State.setNode, State.setLink, State.setHandled,
          State.dequeue, State.trackPacketInTransit, State.record, hjj] using he
    refine .inl ⟨p, _, _, _, hpick, hun, ⟨fun b q x hx => ?_, hqueue, ecn, rfl⟩, rfl, handledStays_snoc .., rfl⟩
    cases hx with
    | held hx => simp at hx
    | inbound he => exact .inl (.inbound (hinbound _ ▸ he))
    | inTransit he =>
      rcases hqueue _ _ he with hold | ⟨rfl, rfl⟩
      · exact .inl (.inTransit hold)
      · exact .inr ⟨rfl, rfl⟩
    | stay hacc hun' =>
      have hhistory : State.history (State.setLinkTask (State.transmit net ((s.dequeue j queue).setHandled p.stay) j
          { p with preferredLinks := links, data := { p.data with transmit := { p.data.transmit with ecn } } } slot) j
          .next) = s.history ++ [.sent s.now j
            { p with preferredLinks := links, data := { p.data with transmit := { p.data.transmit with ecn } } }] := rfl
      rw [show (Scene.mk [] (State.setLinkTask _ j .next)).state.history = _ from hhistory] at hacc hun'
      rcases List.mem_append.1 hacc with hacc | hacc
      · refine .inl (.stay hacc fun hk => hun' ?_)
        rw [handledStays_snoc]
        exact List.mem_append_left _ hk
      · simp at hacc

theorem Picks.at_stay {s s₁ : State} {j : LinkIx} {p : OutgoingPacket} {m : State.Move} (h : Picks j s p s₁ m)
    {net : InMemoryNetwork} (hstays : StaysInv net s) (hun : s.handled p.stay = false) :
    Scene.At ⟨[], s⟩ false (.stay p.stay p.srcNode) p.data :=
  .stay (hstays.copy j p (h.copies ▸ List.mem_cons_self ..)).1 fun hk => by simp [(hstays.handled p.stay).2 hk] at hun

end QuicWorkbench
