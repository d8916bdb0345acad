import QuicWorkbench.Proofs.Buffer
import QuicWorkbench.Proofs.Topology
import Mathlib.Algebra.Order.BigOperators.Group.List

/-!
# Packets without a route

The task of a node hands the packets of its channel to their candidate links, one after the other. A packet without a
route ends the task, and the receiving end of the channel goes with it: the packets behind it are lost, their bytes stay
reserved, and the next packet that the node accepts panics. Up to there, all packets with a route are served.
-/

namespace QuicWorkbench

/-! ### The channel of a node -/

/-- What a step makes of the channel of the node: its task, the packets in it, and what happened to them. -/
inductive ChannelEffect (i : NodeIx) (s s' : State) : Prop
  | other (htask : s'.nodeTasks i = s.nodeTasks i) (houtbound : (s'.nodes i).outbound = (s.nodes i).outbound)
      (haccepted : ∀ k d, .accepted k i d ∈ s'.history ↔ .accepted k i d ∈ s.history)
      (hoffered : ∀ k d, .accepted k i d ∈ s.history → (k ∈ offeredStays s'.history ↔ k ∈ offeredStays s.history))
  | accept (b : BufferedPacket) (hrunning : s.nodeTasks i = .running) (htask : s'.nodeTasks i = s.nodeTasks i)
      (houtbound : (s'.nodes i).outbound = (s.nodes i).outbound ++ [b])
      (hhistory : s'.history = s.history ++ [.accepted b.stay i b.data])
  | acceptInVain (k : Nat) (d : InTransitData) (hended : s.nodeTasks i ≠ .running) (htask : s'.nodeTasks i = s.nodeTasks i)
      (houtbound : (s'.nodes i).outbound = (s.nodes i).outbound) (hhistory : s'.history = s.history ++ [.accepted k i d])
  | offer (packet : BufferedPacket) (outbound : List BufferedPacket) (links : List LinkIx)
      (hrunning : s.nodeTasks i = .running) (htask : s'.nodeTasks i = s.nodeTasks i)
      (hnext : (s.nodes i).outbound = packet :: outbound) (houtbound : (s'.nodes i).outbound = outbound)
      (hhistory : s'.history = s.history ++ [.offered packet.stay links])
  | ends (hrunning : s.nodeTasks i = .running) (hended : s'.nodeTasks i ≠ .running)

namespace ChannelEffect
variable {net : InMemoryNetwork} {s s' : State} {i : NodeIx}

theorem of_history (htask : s'.nodeTasks i = s.nodeTasks i) (houtbound : (s'.nodes i).outbound = (s.nodes i).outbound)
    (hhistory : s'.history = s.history ∨
      ∃ o : Observation, o.accepts = none ∧ o.offers = none ∧ s'.history = s.history ++ [o]) : ChannelEffect i s s' := by
  rcases hhistory with heq | ⟨o, hacc, hoff, heq⟩
  · exact .other htask houtbound (fun k d => by rw [heq]) fun k d _ => by rw [heq]
  · refine .other htask houtbound (fun k d => ?_) fun k d _ => ?_
    · rw [heq, List.mem_append, List.mem_singleton]
      constructor
      · rintro (ho | rfl)
        · exact ho
        · simp [Observation.accepts] at hacc
      · exact .inl
    · rw [heq, offeredStays_snoc, hoff]
      simp

theorem of_offered (hstays : StaysInv net s) {i' : NodeIx} (hi : i ≠ i') {packet : BufferedPacket}
    (hpacket : packet ∈ (s.nodes i').outbound) {links : List LinkIx} (htask : s'.nodeTasks i = s.nodeTasks i)
    (houtbound : (s'.nodes i).outbound = (s.nodes i).outbound)
    (hhistory : s'.history = s.history ++ [.offered packet.stay links]) : ChannelEffect i s s' := by
  refine .other htask houtbound (fun k d => ?_) fun k d hacc => ?_
  · rw [hhistory, List.mem_append, List.mem_singleton]
    exact ⟨fun ho => ho.resolve_right (by simp), .inl⟩
  · rw [hhistory, offeredStays_snoc, List.mem_append]
    refine ⟨fun ho => ho.resolve_right fun hk => ?_, .inl⟩
    obtain rfl : k = packet.stay := by simpa [Observation.offers] using hk
    exact hi (accepted_unique hstays.acceptedNodup (hstays.outbound i' packet hpacket).1 hacc).1

theorem of_stayEffect (hstays : StaysInv net s) (he : StayEffect net s s') (i : NodeIx) : ChannelEffect i s s' := by
  cases he with
  | accept i' d buffer hbuffer htask =>
    by_cases hi : i = i'
    · subst hi
      exact .accept { inNodeSince := s.now, data := d, stay := s.nextStay } htask rfl
        (by rw [State.outbound_pushOutbound_accept, if_pos rfl]) rfl
    · refine .other rfl (by rw [State.outbound_pushOutbound_accept, if_neg hi, List.append_nil]) (fun k d' => ?_)
        fun k d' _ => ?_
      · simp [State.pushOutbound, State.accept, State.observe, State.setNode, hi]
      · show k ∈ offeredStays (s.history ++ [.accepted s.nextStay i' d]) ↔ _
        rw [offeredStays_snoc]
        simp [Observation.offers]
  | acceptInVain i' d buffer hbuffer htask =>
    by_cases hi : i = i'
    · subst hi
      exact .acceptInVain s.nextStay d htask rfl (s.outbound_accept i buffer d i) rfl
    · refine .other rfl (s.outbound_accept i' buffer d i) (fun k d' => ?_) fun k d' _ => ?_
      · simp [State.accept, State.observe, State.setNode, hi]
      · show k ∈ offeredStays (s.history ++ [.accepted s.nextStay i' d]) ↔ _
        rw [offeredStays_snoc]
        simp [Observation.offers]
  | offer i' packet outbound links rolls htask hnext hlinks hall =>
    rw [State.pushCopies_eq]
    by_cases hi : i = i'
    · subst hi
      exact .offer packet outbound links htask rfl hnext (by simp [State.takeOutbound, State.observe, State.setNode]) rfl
    · exact of_offered hstays hi (hnext ▸ List.mem_cons_self ..) rfl
        (by simp [State.takeOutbound, State.observe, State.setNode, hi]) rfl
  | panicOffer i' packet outbound links done rest j rolls htask hnext hlinks hsplit hpanicked =>
    rw [State.pushCopies_eq]
    by_cases hi : i = i'
    · subst hi
      exact .ends htask (by simp [State.endNodeTask, State.setNodeTask])
    · exact of_offered hstays hi (hnext ▸ List.mem_cons_self ..) (by
        simp [State.endNodeTask, State.setNodeTask, State.setNode, State.takeOutbound, State.observe, hi])
        (by simp [State.endNodeTask, State.setNodeTask, State.takeOutbound, State.observe, State.setNode, hi]) rfl
  | endNodeTask i' task htask hend =>
    by_cases hi : i = i'
    · subst hi
      exact .ends htask (by simpa [State.endNodeTask, State.setNodeTask] using hend)
    · exact of_history (by simp [State.endNodeTask, State.setNodeTask, State.setNode, hi])
        (by simp [State.endNodeTask, State.setNodeTask, State.setNode, hi]) (.inl rfl)

theorem of_effect {σ σ' : Scene} (hstays : StaysInv net σ.state) (he : Effect net σ σ') (i : NodeIx) :
    ChannelEffect i σ.state σ'.state := by
  rcases he.quiet_or_stay with hq | hs
  · exact of_history (by rw [hq.nodeTasks]) (hq.outbound i) (.inl hq.history)
  · exact of_stayEffect hstays hs i

theorem of_linkEffect {j : LinkIx} (he : LinkEffect net j s s') (i : NodeIx) : ChannelEffect i s s' := by
  cases he with
  | park p s₁ task hp =>
    obtain ⟨queue, rfl⟩ := hp.eq_dequeue
    exact of_history rfl rfl (.inl rfl)
  | discard p p' s₁ hp =>
    obtain ⟨queue, rfl⟩ := hp.eq_dequeue
    exact of_history rfl rfl (.inr ⟨_, rfl, rfl, rfl⟩)
  | clear p p' s₁ hp =>
    obtain ⟨queue, rfl⟩ := hp.eq_dequeue
    exact of_history rfl rfl (.inr ⟨.cleared j p', rfl, rfl, rfl⟩)
  | send p p' s₁ data slot hp =>
    obtain ⟨queue, rfl⟩ := hp.eq_dequeue
    refine of_history rfl ?_ (.inr ⟨.sent s.now j { p' with data }, rfl, rfl, rfl⟩)
    by_cases hi : i = p'.srcNode <;> simp [State.transmit, State.setLinkTask, State.observe, State.setNode, State.setLink,
      State.setHandled, State.dequeue, State.trackPacketInTransit, State.record, hi]
  | panicSend p p' s₁ hp =>
    obtain ⟨queue, rfl⟩ := hp.eq_dequeue
    exact of_history rfl rfl (.inr ⟨.sendPanicked j p', rfl, rfl, rfl⟩)

theorem of_event (hf : State.EventFrame s s') (i : NodeIx) : ChannelEffect i s s' :=
  of_history (by rw [hf.nodeTasks]) (hf.outbound i) (.inl hf.history)

theorem preserved {P : State → Prop} (hP : ∀ s s', StaysInv net s → ChannelEffect i s s' → P s → P s') :
    Preserved net fun σ => StaysInv net σ.state ∧ P σ.state where
  effect σ σ' he h := ⟨(StaysInv.preserved net).effect σ σ' he h.1, hP _ _ h.1 (of_effect h.1 he i) h.2⟩
  link _ s s' _ he h := ⟨h.1.linkEffect he, hP s s' h.1 (of_linkEffect he i) h.2⟩
  linkEvent s event h :=
    have hf := s.processLinkEvent_frame net event
    ⟨h.1.event hf, hP s _ h.1 (of_event hf i) h.2⟩
  nodeEvent s event h :=
    have hf := s.processNodeEvent_frame net event
    ⟨h.1.event hf, hP s _ h.1 (of_event hf i) h.2⟩
  events s _ h := ⟨{ h.1 with }, hP s _ h.1 (of_history rfl rfl (.inl rfl)) h.2⟩

end ChannelEffect

/-- While the node's task is running, each packet that the node has accepted was offered or waits in the channel. -/
def Served (i : NodeIx) (s : State) : Prop :=
  s.nodeTasks i = .running → ∀ k d, .accepted k i d ∈ s.history →
    k ∈ offeredStays s.history ∨ ∃ b ∈ (s.nodes i).outbound, b.stay = k

theorem Served.channel {i : NodeIx} {s s' : State} (h : Served i s) (he : ChannelEffect i s s') : Served i s' := by
  intro hrunning k d hacc
  cases he with
  | other htask houtbound haccepted hoffered =>
    have hacc := (haccepted k d).1 hacc
    rw [houtbound, hoffered k d hacc]
    exact h (htask ▸ hrunning) k d hacc
  | accept b hrunning' htask houtbound hhistory =>
    rw [houtbound, hhistory, offeredStays_snoc]
    rw [hhistory] at hacc
    rcases List.mem_append.1 hacc with hacc | hnew
    · rcases h hrunning' k d hacc with hk | ⟨b', hb', hk⟩
      · exact .inl (List.mem_append_left _ hk)
      · exact .inr ⟨b', List.mem_append_left _ hb', hk⟩
    · obtain ⟨rfl, -, -⟩ := by simpa using hnew
      exact .inr ⟨b, List.mem_append_right _ (List.mem_singleton_self b), rfl⟩
  | acceptInVain k' d' hended htask => exact absurd (htask ▸ hrunning) hended
  | offer packet outbound links hrunning' htask hnext houtbound hhistory =>
    rw [houtbound, hhistory, offeredStays_snoc]
    have hacc : .accepted k i d ∈ s.history := by simpa [hhistory] using hacc
    rcases h hrunning' k d hacc with hk | ⟨b, hb, rfl⟩
    · exact .inl (List.mem_append_left _ hk)
    · rw [hnext] at hb
      rcases List.mem_cons.1 hb with rfl | hb
      · exact .inl (List.mem_append_right _ (by simp [Observation.offers]))
      · exact .inr ⟨b, hb, rfl⟩
  | ends _ hended => exact absurd hrunning hended

/-- The packet was accepted, but the node's task has ended before it could be offered. -/
structure Lost (i : NodeIx) (k : Nat) (d : InTransitData) (s : State) : Prop where
  returned : s.nodeTasks i = .returned
  outbound : (s.nodes i).outbound = []
  accepted : .accepted k i d ∈ s.history
  unoffered : k ∉ offeredStays s.history

theorem Lost.channel {i : NodeIx} {k : Nat} {d : InTransitData} {s s' : State} (h : Lost i k d s) (he : ChannelEffect i s s') :
    Lost i k d s' := by
  have hended : s.nodeTasks i ≠ .running := by simp [h.returned]
  cases he with
  | other htask houtbound haccepted hoffered =>
    exact ⟨htask.trans h.returned, houtbound.trans h.outbound, (haccepted k d).2 h.accepted,
      fun hk => h.unoffered ((hoffered k d h.accepted).1 hk)⟩
  | accept b hrunning => exact absurd hrunning hended
  | acceptInVain k' d' _ htask houtbound hhistory =>
    refine ⟨htask.trans h.returned, houtbound.trans h.outbound, hhistory ▸ List.mem_append_left _ h.accepted, ?_⟩
    rw [hhistory, offeredStays_snoc]
    simpa [Observation.offers] using h.unoffered
  | offer packet outbound links hrunning => exact absurd hrunning hended
  | ends hrunning => exact absurd hrunning hended

/-! ### What the other tasks leave alone -/

/-- No node's task has gone on. -/
structure TasksFrame (s s' : State) : Prop where
  nodeTasks : s'.nodeTasks = s.nodeTasks
  offered : ∀ k links, .offered k links ∈ s'.history → .offered k links ∈ s.history

namespace TasksFrame
variable {net : InMemoryNetwork} {s s' s'' : State}

theorem refl (s : State) : TasksFrame s s := ⟨rfl, fun _ _ h => h⟩

theorem trans (h : TasksFrame s s') (h' : TasksFrame s' s'') : TasksFrame s s'' :=
  ⟨h'.nodeTasks.trans h.nodeTasks, fun k links hk => h.offered k links (h'.offered k links hk)⟩

theorem of_eq (htasks : s'.nodeTasks = s.nodeTasks) (hhistory : s'.history = s.history) : TasksFrame s s' :=
  ⟨htasks, fun _ _ h => hhistory ▸ h⟩

theorem of_observe {o : Observation} (htasks : s'.nodeTasks = s.nodeTasks) (hhistory : s'.history = s.history ++ [o])
    (ho : o.offers = none) : TasksFrame s s' := by
  refine ⟨htasks, fun k links hk => ?_⟩
  rw [hhistory, List.mem_append, List.mem_singleton] at hk
  refine hk.resolve_right fun heq => ?_
  simp [← heq, Observation.offers] at ho

theorem enqueueOutbound (net : InMemoryNetwork) (s : State) (i : NodeIx) (t : Nat) (d : InTransitData) :
    TasksFrame s (State.settled (s.enqueueOutbound net i t d)) := by
  unfold State.enqueueOutbound
  split
  · dsimp only
    split <;> exact of_observe rfl rfl rfl
  · exact of_eq rfl rfl

theorem forward (net : InMemoryNetwork) (s : State) (i : NodeIx) (d : InTransitData) (draws : Draws) :
    TasksFrame s (State.settled (s.forward net i d draws)) := by
  unfold State.forward
  dsimp only
  split_ifs
  · exact of_eq rfl rfl
  · exact of_eq rfl rfl
  · exact of_eq rfl rfl
  · have hfirst := enqueueOutbound net ((s.trackPacketInNode net i d).newPacketId draws.uuid) i (s.trackPacketInNode net i d).now d
    refine (of_eq rfl rfl : TasksFrame s ((s.trackPacketInNode net i d).newPacketId draws.uuid)).trans ?_
    revert hfirst
    cases ((s.trackPacketInNode net i d).newPacketId draws.uuid).enqueueOutbound net i (s.trackPacketInNode net i d).now d with
    | error s₁ => exact fun hfirst => hfirst
    | ok s₁ =>
      intro hfirst
      refine hfirst.trans (.trans ?_ (enqueueOutbound net _ i _ _))
      rw [State.trackInjectedFailures_duplicate]
      exact of_eq rfl rfl
  · exact (of_eq rfl rfl : TasksFrame s (s.trackPacketInNode net i d)).trans (enqueueOutbound net _ i _ d)

theorem forwardDelivered (net : InMemoryNetwork) (j : LinkIx) (delivered : List DeliveredTransmit) (draws : Nat → Draws)
    (s : State) : TasksFrame s (State.settled (State.forwardDelivered net j delivered draws s)) := by
  induction delivered generalizing draws s with
  | nil => exact refl s
  | cons x delivered ih =>
    rw [State.forwardDelivered]
    split_ifs
    · exact (of_eq rfl rfl : TasksFrame s (s.trackLostInTransit net j x.data)).trans (ih _ _)
    split
    · exact refl s
    · rename_i i hlookup
      have hforward := forward net s i x.data (draws 0)
      revert hforward
      cases s.forward net i x.data (draws 0) with
      | error s₁ => exact fun hforward => hforward
      | ok s₁ => exact fun hforward => hforward.trans (ih _ s₁)

theorem of_linkEffect {j : LinkIx} (he : LinkEffect net j s s') : TasksFrame s s' := by
  cases he with
  | park p s₁ task hp =>
    obtain ⟨queue, rfl⟩ := hp.eq_dequeue
    exact of_eq rfl rfl
  | discard p p' s₁ hp =>
    obtain ⟨queue, rfl⟩ := hp.eq_dequeue
    exact of_observe rfl rfl rfl
  | clear p p' s₁ hp =>
    obtain ⟨queue, rfl⟩ := hp.eq_dequeue
    exact of_observe (o := .cleared j p') rfl rfl rfl
  | send p p' s₁ data slot hp =>
    obtain ⟨queue, rfl⟩ := hp.eq_dequeue
    exact of_observe (o := .sent s.now j { p' with data }) rfl rfl rfl
  | panicSend p p' s₁ hp =>
    obtain ⟨queue, rfl⟩ := hp.eq_dequeue
    exact of_observe (o := .sendPanicked j p') rfl rfl rfl

theorem step {a : Action} (ha : ∀ i rolls, a ≠ .nodeTask i rolls) (h : net.step s a = some s') : TasksFrame s s' := by
  cases a with
  | advance duration =>
    obtain rfl := Option.some.inj h
    exact of_eq rfl rfl
  | networkEvent =>
    rw [InMemoryNetwork.step] at h
    split at h
    · simp at h
    · rename_i event events hevents
      split_ifs at h
      obtain rfl := Option.some.inj h
      unfold State.processEvent
      cases event.kind with
      | link payload =>
        have hf := State.processLinkEvent_frame net { s with events } payload
        exact of_eq hf.nodeTasks hf.history
      | node payload =>
        have hf := State.processNodeEvent_frame net { s with events } payload
        exact of_eq hf.nodeTasks hf.history
  | trySend i transmit uuid draws =>
    rw [InMemoryNetwork.step, State.trySend] at h
    split at h
    · simp at h
    · rename_i endpoint hendpoint
      split_ifs at h
      obtain rfl := Option.some.inj h
      exact (of_eq rfl rfl : TasksFrame s (s.create uuid)).trans (forward net _ i _ draws)
  | pollRecv i metaLen =>
    obtain ⟨q, delivery, read, rfl⟩ := State.exists_of_pollRecv h
    exact of_eq rfl rfl
  | nodeTask i rolls => exact absurd rfl (ha i rolls)
  | linkTask j slot =>
    rw [InMemoryNetwork.step] at h
    split_ifs at h
    exact of_linkEffect (State.processLinkQueue_effect h)
  | forwarder j draws =>
    rw [InMemoryNetwork.step] at h
    split_ifs at h
    obtain ⟨q, ⟨delivery, rfl⟩ | ⟨delivered, result, hresult, hs'⟩⟩ := State.exists_of_forwardPacketsFromLinkToNode h
    · exact of_eq rfl rfl
    · have hstart : TasksFrame s ((s.setInTransit j q).setForwarder j (.awaiting (.new usizeMax))) := of_eq rfl rfl
      have hforward := hstart.trans (forwardDelivered net j delivered draws _)
      rw [hresult] at hforward
      obtain rfl | ⟨s₁, rfl, rfl⟩ := hs'
      · exact hforward
      · exact hforward.trans (of_eq rfl rfl)

end TasksFrame

/-! ### What the running task of a node takes -/

namespace State
variable {s : State} {i : NodeIx}

theorem exists_enqueueOutbound (net : InMemoryNetwork) (hrunning : s.nodeTasks i = .running) (t : Nat) (d : InTransitData) :
    ∃ s', s.enqueueOutbound net i t d = .ok s' ∧ s'.nodeTasks = s.nodeTasks := by
  unfold enqueueOutbound
  cases (s.nodes i).outboundBuffer.reserve d.packetSize with
  | none => exact ⟨_, rfl, rfl⟩
  | some buffer => exact ⟨_, if_pos hrunning, rfl⟩

theorem exists_forward (net : InMemoryNetwork) (hrunning : s.nodeTasks i = .running) (d : InTransitData) (draws : Draws) :
    ∃ s', s.forward net i d draws = .ok s' := by
  unfold forward
  by_cases hdown : (s.nodes i).isDown
  · rw [if_pos hdown]
    exact ⟨_, rfl⟩
  rw [if_neg hdown]
  dsimp only
  split_ifs
  · exact ⟨_, rfl⟩
  · exact ⟨_, rfl⟩
  · have hrunning' : ((s.trackPacketInNode net i d).newPacketId draws.uuid).nodeTasks i = .running := hrunning
    rcases exists_enqueueOutbound net hrunning' (s.trackPacketInNode net i d).now d with ⟨s₁, hfirst, htasks⟩
    have hrunning₁ : (s₁.trackInjectedFailures net i { d with id := draws.uuid, duplicate := true } true 0 false).nodeTasks i =
        .running := by
      rw [trackInjectedFailures_duplicate]
      exact (congrFun htasks i).trans hrunning'
    rcases exists_enqueueOutbound net hrunning₁ (s.trackPacketInNode net i d).now
      { d with id := draws.uuid, duplicate := true } with ⟨s₂, hsecond, -⟩
    exact ⟨s₂, Except.bind_eq_ok.2 ⟨s₁, hfirst, hsecond⟩⟩
  · have hrunning' : (s.trackPacketInNode net i d).nodeTasks i = .running := hrunning
    rcases exists_enqueueOutbound net hrunning' (s.trackPacketInNode net i d).now d with ⟨s₁, hfirst, -⟩
    exact ⟨s₁, hfirst⟩

theorem exists_forwardDelivered {net : InMemoryNetwork} {j : LinkIx}
    (htarget : net.nodesByAddr.lookup (net.link j).target = some i) (hrunning : s.nodeTasks i = .running)
    (delivered : List DeliveredTransmit) (draws : Nat → Draws) : ∃ s', forwardDelivered net j delivered draws s = .ok s' := by
  induction delivered generalizing draws s with
  | nil => exact ⟨s, rfl⟩
  | cons x delivered ih =>
    rw [forwardDelivered]
    split_ifs
    · have hrunning' : (s.trackLostInTransit net j x.data).nodeTasks i = .running := hrunning
      exact ih hrunning' _
    · rcases exists_forward net hrunning x.data (draws 0) with ⟨s₁, hforward⟩
      have htasks := (TasksFrame.forward net s i x.data (draws 0)).nodeTasks
      rw [hforward, settled_ok] at htasks
      rcases ih ((congrFun htasks i).trans hrunning) (fun k => draws (k + 1)) with ⟨s₂, hrest⟩
      rw [htarget]
      exact ⟨s₂, Except.bind_eq_ok.2 ⟨s₁, hforward, hrest⟩⟩

end State

/-! ### The task of a node -/

/-- There is no route from the node to the packet's destination. -/
def InMemoryNetwork.Unroutable (net : InMemoryNetwork) (i : NodeIx) (d : InTransitData) : Prop :=
  net.hasRouteTo (net.node i) d.transmit.destination.ip = some false

instance (net : InMemoryNetwork) (i : NodeIx) (d : InTransitData) : Decidable (net.Unroutable i d) :=
  inferInstanceAs (Decidable (_ = _))

theorem InMemoryNetwork.candidateLinks_of_unroutable {net : InMemoryNetwork} {i : NodeIx} {d : InTransitData}
    (h : net.Unroutable i d) : net.candidateLinks (net.node i) d.transmit.destination.ip = some [] := by
  unfold InMemoryNetwork.Unroutable InMemoryNetwork.hasRouteTo at h
  rw [InMemoryNetwork.candidateLinks]
  split at h
  · rename_i hwalk
    rw [hwalk]
    rfl
  · simp at h
  · simp at h

theorem InMemoryNetwork.candidateLinks_ne_nil {net : InMemoryNetwork} {n : Node} {dest : IpAddr}
    (h : net.hasRouteTo n dest = some true) : net.candidateLinks n dest ≠ some [] := by
  unfold InMemoryNetwork.hasRouteTo at h
  rw [InMemoryNetwork.candidateLinks]
  split at h
  · simp at h
  · rename_i j walk hwalk
    rw [hwalk]
    cases hrest : List.mapM id walk <;> simp [List.mapM_cons, hrest]
  · simp at h

/-- What is offered is offered to some link. -/
def OffersLinks (s : State) : Prop := ∀ k links, .offered k links ∈ s.history → links ≠ []

namespace State
variable {net : InMemoryNetwork} {s s' : State} {i : NodeIx} {rolls : Nat → Roll × Roll} {packet : BufferedPacket}
  {outbound : List BufferedPacket}

theorem TakeEffect.offersLinks (he : TakeEffect net i rolls packet outbound s s') (h : OffersLinks s) : OffersLinks s' := by
  have hoffer : ∀ (links : List LinkIx) (history : List Observation),
      net.hasRouteTo (net.node i) packet.data.transmit.destination.ip = some true →
      net.candidateLinks (net.node i) packet.data.transmit.destination.ip = some links →
      history = s.history ++ [.offered packet.stay links] → ∀ k links, .offered k links ∈ history → links ≠ [] := by
    intro links history hroute hlinks hhistory k links' hk
    rw [hhistory, List.mem_append, List.mem_singleton] at hk
    rcases hk with hk | hk
    · exact h k links' hk
    · obtain ⟨-, rfl⟩ := by simpa using hk
      rintro rfl
      exact InMemoryNetwork.candidateLinks_ne_nil hroute hlinks
  cases he with
  | panic => exact h
  | unroutable => exact h
  | offer links hroute hlinks hall =>
    rw [pushCopies_eq]
    exact hoffer links _ hroute hlinks rfl
  | panicOffer links done rest j hroute hlinks =>
    rw [pushCopies_eq]
    exact hoffer links _ hroute hlinks rfl

theorem TakeEffect.nodeTasks_of_ne (he : TakeEffect net i rolls packet outbound s s') {i' : NodeIx} (hi : i' ≠ i) :
    s'.nodeTasks i' = s.nodeTasks i' := by
  cases he with
  | panic => simp [endNodeTask, setNodeTask, setNode, hi]
  | unroutable => simp [endNodeTask, setNodeTask, setNode, hi]
  | offer links =>
    rw [pushCopies_eq]
    rfl
  | panicOffer links done =>
    rw [pushCopies_eq]
    simp [endNodeTask, setNodeTask, setNode, takeOutbound, observe, hi]

end State

/-- The packet that the task of the node takes has a route, and no task of a candidate link has panicked. -/
def TakesRoutable (i : NodeIx) (net : InMemoryNetwork) (s : State) : Action → Prop
  | .nodeTask i' _ => i' = i → ∀ packet ∈ (s.nodes i).outbound.head?, ¬ net.Unroutable i packet.data ∧
      ∀ links ∈ net.candidateLinks (net.node i) packet.data.transmit.destination.ip, ∀ j ∈ links, s.linkTasks j ≠ .panicked
  | _ => True

instance (i : NodeIx) (net : InMemoryNetwork) (s : State) (a : Action) : Decidable (TakesRoutable i net s a) := by
  unfold TakesRoutable
  split <;> infer_instance

namespace InMemoryNetwork
variable {net : InMemoryNetwork} {s s' : State} {i : NodeIx} {a : Action}

theorem offersLinks_step (h : OffersLinks s) (hstep : net.step s a = some s') : OffersLinks s' := by
  by_cases ha : ∃ i rolls, a = .nodeTask i rolls
  · obtain ⟨i, rolls, rfl⟩ := ha
    rw [step] at hstep
    split_ifs at hstep
    obtain ⟨packet, outbound, -, -, htakes⟩ := State.processBufferForNode_takes hstep
    exact htakes.offersLinks h
  · have hf := TasksFrame.step (fun i rolls heq => ha ⟨i, rolls, heq⟩) hstep
    exact fun k links hk => h k links (hf.offered k links hk)

theorem running_step (hroutes : ∀ n ∈ net.nodes, ∀ a ∈ n.addresses, (net.routesByAddr.lookup a).isSome)
    (h : s.nodeTasks i = .running) (hC : TakesRoutable i net s a) (hstep : net.step s a = some s') :
    s'.nodeTasks i = .running := by
  by_cases ha : ∃ i rolls, a = .nodeTask i rolls
  · obtain ⟨i', rolls, rfl⟩ := ha
    rw [step] at hstep
    split_ifs at hstep with hi'
    obtain ⟨packet, outbound, -, hnext, htakes⟩ := State.processBufferForNode_takes hstep
    by_cases hi : i = i'
    · subst hi
      obtain ⟨hroute, hlive⟩ := hC rfl packet (by rw [hnext]; rfl)
      obtain ⟨links, hwalk⟩ := exists_walkLinks (hroutes (net.node i) (node_eq_getElem hi' ▸ List.getElem_mem hi'))
        packet.data.transmit.destination.ip
      have hcandidates := candidateLinks_of_walk hwalk
      cases htakes with
      | panic hnone =>
        rw [hasRouteTo_of_walk hwalk, hcandidates] at hnone
        simp at hnone
      | unroutable hnoroute => exact absurd hnoroute hroute
      | offer links' =>
        rw [State.pushCopies_eq]
        exact h
      | panicOffer links' done rest j _ hlinks hsplit hpanicked =>
        exact absurd hpanicked (hlive links' hlinks j (by simp [hsplit]))
    · rw [htakes.nodeTasks_of_ne hi]
      exact h
  · have hf := TasksFrame.step (fun i rolls heq => ha ⟨i, rolls, heq⟩) hstep
    rw [hf.nodeTasks]
    exact h

end InMemoryNetwork

/-- No packet has entered the network yet, and no task has ended. -/
structure Started (s : State) : Prop where
  history : s.history = []
  nodeTasks : ∀ i, s.nodeTasks i = .running
  forwarders : ∀ j, (s.forwarders j).hasPanicked = false

theorem Started.initialized {spec : NetworkSpec} {events : NetworkEvents} {net : InMemoryNetwork} {s₀ : State}
    {simulationStart start now : Nat} {disableTimeWarping : Bool} (hinit : InMemoryNetwork.initializeNetwork spec events
      simulationStart start now disableTimeWarping = .ok (net, s₀)) : Started s₀ := by
  refine InMemoryNetwork.initializeNetwork_induction (I := Started) hinit ⟨rfl, fun _ => rfl, fun _ => rfl⟩ ?_ ?_
  · intro s payload _ hs
    have hf := s.processLinkEvent_frame net payload
    exact ⟨hf.history ▸ hs.history, hf.nodeTasks ▸ hs.nodeTasks, hf.forwarders ▸ hs.forwarders⟩
  · intro s payload _ hs
    have hf := s.processNodeEvent_frame net payload
    exact ⟨hf.history ▸ hs.history, hf.nodeTasks ▸ hs.nodeTasks, hf.forwarders ▸ hs.forwarders⟩

/-! ### The others -/

/-- Packets without a route do not affect the others at the node. -/
structure OthersUnaffected (net : InMemoryNetwork) (s : State) (i : NodeIx) : Prop where
  /-- `enqueue_outbound` does not panic -/
  enqueues : ∀ t d, ∃ s', s.enqueueOutbound net i t d = .ok s'
  /-- a packet without a route has bytes reserved only as long as it waits in the channel -/
  givenBack : (s.nodes i).outboundBuffer.availableCapacityBytes +
    bytes ((resident i s.history).filter fun x => ¬ net.Unroutable i x.2 ∨ x.1 ∈ (s.nodes i).outbound.map BufferedPacket.stay) +
    clearedBytes i s.history = (net.node i).capacityBytes
  /-- a packet with a route is offered to its candidate links, or waits for the task, which is running -/
  offered : ∀ k d, .accepted k i d ∈ s.history → ¬ net.Unroutable i d →
    (∃ links, .offered k links ∈ s.history ∧ net.candidateLinks (net.node i) d.transmit.destination.ip = some links) ∨
      s.nodeTasks i = .running ∧ ∃ b ∈ (s.nodes i).outbound, b.stay = k ∧ b.data = d

theorem OthersUnaffected.of_running {net : InMemoryNetwork} {s : State} {i : NodeIx} (hbuffer : BufferInv net s)
    (hserved : Served i s) (hoffers : OffersLinks s) (hrunning : s.nodeTasks i = .running) : OthersUnaffected net s i where
  enqueues t d := by
    obtain ⟨s', henqueue, -⟩ := State.exists_enqueueOutbound net hrunning t d
    exact ⟨s', henqueue⟩
  givenBack := by
    rw [List.filter_eq_self.2 fun x hx => ?_]
    · exact hbuffer.balance i
    obtain ⟨k, d⟩ := x
    have hacc := mem_acceptedAt.1 (List.mem_filter.1 hx).1
    simp only [decide_eq_true_eq]
    rcases hserved hrunning k d hacc with hk | ⟨b, hb, hk⟩
    · obtain ⟨links, hlinks⟩ := mem_offeredStays.1 hk
      obtain ⟨i', d', hacc', hcandidates⟩ := hbuffer.stays.offered k links hlinks
      obtain ⟨rfl, rfl⟩ := accepted_unique hbuffer.stays.acceptedNodup hacc hacc'
      refine .inl fun hun => hoffers k links hlinks ?_
      rw [InMemoryNetwork.candidateLinks_of_unroutable hun] at hcandidates
      exact (Option.some.inj hcandidates).symm
    · exact .inr (List.mem_map.2 ⟨b, hb, hk⟩)
  offered k d hacc _ := by
    rcases hserved hrunning k d hacc with hk | ⟨b, hb, rfl⟩
    · obtain ⟨links, hlinks⟩ := mem_offeredStays.1 hk
      obtain ⟨i', d', hacc', hcandidates⟩ := hbuffer.stays.offered k links hlinks
      obtain ⟨rfl, rfl⟩ := accepted_unique hbuffer.stays.acceptedNodup hacc hacc'
      exact .inl ⟨links, hlinks, hcandidates⟩
    · have hdata := (accepted_unique hbuffer.stays.acceptedNodup hacc (hbuffer.stays.outbound i b hb).1).2
      exact .inr ⟨hrunning, b, hb, rfl, hdata⟩

theorem bytes_filter_add_le {packets : List (Nat × InTransitData)} {p : Nat × InTransitData → Bool} {k : Nat} {d : InTransitData}
    (hmem : (k, d) ∈ packets) (hp : ¬ p (k, d)) : bytes (packets.filter p) + d.packetSize ≤ bytes packets := by
  have hparts : bytes (packets.filter p) + bytes (packets.filter fun x => !p x) = bytes packets := by
    rw [bytes, bytes, ← List.sum_append, ← List.map_append]
    exact ((List.filter_append_perm p packets).map _).sum_eq
  have hle : d.packetSize ≤ bytes (packets.filter fun x => !p x) :=
    List.le_sum_of_mem (List.mem_map.2 ⟨(k, d), List.mem_filter.2 ⟨hmem, by simpa using hp⟩, rfl⟩)
  omega

/-- A packet without a route that was lost has its bytes reserved for ever. -/
theorem Lost.not_unaffected {net : InMemoryNetwork} {s : State} {i : NodeIx} {k : Nat} {d : InTransitData}
    (h : Lost i k d s) (hbuffer : BufferInv net s) (hun : net.Unroutable i d) : ¬ OthersUnaffected net s i := by
  intro hunaffected
  have hresident : (k, d) ∈ resident i s.history := by
    refine List.mem_filter.2 ⟨mem_acceptedAt.2 h.accepted, decide_eq_true fun hk => h.unoffered ?_⟩
    exact hbuffer.stays.handledOffered k (departedStays_subset _ k hk)
  have hless := bytes_filter_add_le (p := fun x =>
      ¬ net.Unroutable i x.2 ∨ x.1 ∈ (s.nodes i).outbound.map BufferedPacket.stay) hresident (by simp [hun, h.outbound])
  have hpos : 0 < d.packetSize := d.transmit.packetSize_pos
  have hbalance := hbuffer.balance i
  have hgiven := hunaffected.givenBack
  omega

/-- In every run in which the task of the node takes no packet without a route (and offers no packet to a link whose task has
panicked), the others are unaffected. Once it takes one, they are not. -/
theorem othersUnaffected_of_takesRoutable {spec : NetworkSpec} {events : NetworkEvents} {net : InMemoryNetwork}
    {s₀ s : State} {simulationStart start now : Nat} {disableTimeWarping : Bool} {actions : List Action}
    (hinit : InMemoryNetwork.initializeNetwork spec events simulationStart start now disableTimeWarping = .ok (net, s₀))
    (hrun : net.machine.run s₀ actions = some s) (i : NodeIx) :
    (net.machine.Guarded (TakesRoutable i net) s₀ actions → OthersUnaffected net s i) ∧
    ∀ before rolls after s₁ packet, actions = before ++ .nodeTask i rolls :: after → net.machine.run s₀ before = some s₁ →
      (s₁.nodes i).outbound.head? = some packet → net.Unroutable i packet.data → ¬ OthersUnaffected net s i := by
  have hroutes : ∀ n ∈ net.nodes, ∀ a ∈ n.addresses, (net.routesByAddr.lookup a).isSome := fun n hn a ha =>
    InMemoryNetwork.isSome_routesByAddr (InMemoryNetwork.initializeNetwork_ok hinit).1 hn ha
  have hbuffer₀ : BufferInv net s₀ := (BufferInv.preserved net).initialized hinit (.initial net now _)
  have hbuffer : BufferInv net s := (BufferInv.preserved net).run hrun hbuffer₀
  constructor
  · intro hC
    have hstarted : Started s₀ := .initialized hinit
    have hserved : Served i s := ((ChannelEffect.preserved fun s s' _ he h => h.channel he).run hrun
      ⟨hbuffer₀.stays, fun _ k d hacc => by simp [hstarted.history] at hacc⟩).2
    have hoffers : OffersLinks s := Machine.run_invariant (M := net.machine)
      (fun _ _ _ h hstep => InMemoryNetwork.offersLinks_step h hstep) (fun k links hk => by simp [hstarted.history] at hk) hrun
    have hrunning : s.nodeTasks i = .running := Machine.run_invariant_of_guarded (M := net.machine)
      (I := fun s => s.nodeTasks i = .running) (fun _ _ _ h hC hstep => InMemoryNetwork.running_step hroutes h hC hstep) hC
      (hstarted.nodeTasks i) hrun
    exact .of_running hbuffer hserved hoffers hrunning
  · rintro before rolls after s₁ packet rfl hbefore hhead hun
    obtain ⟨s₁', hs₁, hafter⟩ := Machine.run_append_eq_some.1 hrun
    obtain rfl := Option.some.inj (hbefore.symm.trans hs₁)
    obtain ⟨s₂, hstep, hafter⟩ := Machine.run_cons_eq_some.1 hafter
    have hbuffer₁ : BufferInv net s₁ := (BufferInv.preserved net).run hbefore hbuffer₀
    have hstep : net.step s₁ (.nodeTask i rolls) = some s₂ := hstep
    have hbuffer₂ : BufferInv net s₂ := (BufferInv.preserved net).step hstep hbuffer₁
    have hlost : Lost i packet.stay packet.data s₂ := by
      have htake : s₁.processBufferForNode net i rolls = some s₂ := by
        rw [InMemoryNetwork.step] at hstep
        split_ifs at hstep
        exact hstep
      obtain ⟨packet', outbound, -, hnext, htakes⟩ := State.processBufferForNode_takes htake
      obtain rfl : packet' = packet := by simpa [hnext] using hhead
      obtain ⟨hacc, hoff⟩ := hbuffer₁.stays.outbound i packet' (by simp [hnext])
      rw [InMemoryNetwork.Unroutable] at hun
      cases htakes with
      | panic hnone =>
        rw [InMemoryNetwork.candidateLinks_of_unroutable hun, hun] at hnone
        simp at hnone
      | unroutable =>
        exact ⟨by simp [State.endNodeTask, State.setNodeTask], by simp [State.endNodeTask, State.setNodeTask, State.setNode],
          hacc, hoff⟩
      | offer links hroute => simp [hun] at hroute
      | panicOffer links done rest j hroute => simp [hun] at hroute
    have hlost' : Lost i packet.stay packet.data s := ((ChannelEffect.preserved fun s s' _ he h => h.channel he).run hafter
      ⟨hbuffer₂.stays, hlost⟩).2
    exact hlost'.not_unaffected hbuffer hun

/-- A packet to an address that nobody has. -/
def HostPair.strayTransmit : OwnedTransmit := { HostPair.transmit with destination := ⟨.v4 0x0b000001, hostPort⟩ }

/-- The stray packet waits at `A` behind one to `B`, which is offered; then the task of `A` takes it. -/
theorem othersUnaffected_hostPair : ∃ net s₀ s s', InMemoryNetwork.initializeNetwork (hostPair 8000000 0)
      (.new [] (hostPair 8000000 0).nodes (hostPair 8000000 0).links) 0 0 0 false = .ok (net, s₀) ∧
    net.machine.run s₀ (HostPair.sendFromA 1 ++ [.trySend 0 HostPair.strayTransmit 2 (HostPair.draws 0)]) = some s ∧
    net.step s (.nodeTask 0 HostPair.rolls) = some s' ∧ OthersUnaffected net s 0 ∧ ¬ OthersUnaffected net s' 0 := by
  obtain ⟨net, s₀, s, hinit, hC, hrun, hP⟩ := exists_of_simulateGuarded (hostPair 8000000 0) []
    (HostPair.sendFromA 1 ++ [.trySend 0 HostPair.strayTransmit 2 (HostPair.draws 0)]) (TakesRoutable 0)
    (fun net s => (net.step s (.nodeTask 0 HostPair.rolls)).isSome && (s.nodes 0).outbound.head?.any
      fun packet => decide (net.Unroutable 0 packet.data)) (by decide +kernel)
  rw [Bool.and_eq_true] at hP
  obtain ⟨s', hstep⟩ := Option.isSome_iff_exists.1 hP.1
  obtain ⟨packet, hhead, hun⟩ := (Option.any_eq_true _ _).1 hP.2
  have hrun' : net.machine.run s₀ (HostPair.sendFromA 1 ++ [.trySend 0 HostPair.strayTransmit 2 (HostPair.draws 0)] ++
      [.nodeTask 0 HostPair.rolls]) = some s' :=
    Machine.run_append_eq_some.2 ⟨s, hrun, Machine.run_cons_eq_some.2 ⟨s', hstep, rfl⟩⟩
  refine ⟨net, s₀, s, s', hinit, hrun, hstep, (othersUnaffected_of_takesRoutable hinit hrun 0).1 hC, ?_⟩
  exact (othersUnaffected_of_takesRoutable hinit hrun' 0).2 _ HostPair.rolls [] s packet rfl hrun hhead (of_decide_eq_true hun)

/-- The task of `A` takes a stray packet before one to `B`: that one is never offered, and the next one panics. -/
theorem stray_packet_stops_node : ∃ net s, Reaches false (hostPair 8000000 0) [] net s ∧
    (∃ k d, .accepted k 0 d ∈ s.history ∧ net.Unroutable 0 d) ∧ s.reservedBytes net 0 = 256 ∧
    (s.nodes 0).outbound = [] ∧ offeredStays s.history = [] ∧
    (∃ s', s.enqueueOutbound net 0 s.now HostPair.firstPacket = .error s') ∧ ¬ OthersUnaffected net s 0 := by
  obtain ⟨net, s, hreach, hs⟩ := exists_reaches_of_simulate (hostPair 8000000 0) []
    [.trySend 0 HostPair.strayTransmit 1 (HostPair.draws 0), .trySend 0 HostPair.transmit 2 (HostPair.draws 0),
      .nodeTask 0 HostPair.rolls]
    (fun net s => ((acceptedAt 0 s.history).any fun x => decide (net.Unroutable 0 x.2)) &&
      decide (s.reservedBytes net 0 = 256 ∧ (s.nodes 0).outbound = [] ∧ offeredStays s.history = []) &&
      !(s.enqueueOutbound net 0 s.now HostPair.firstPacket).isOk) (by decide +kernel)
  rw [Bool.and_eq_true, Bool.and_eq_true, List.any_eq_true] at hs
  obtain ⟨⟨⟨⟨k, d⟩, hacc, hun⟩, hfacts⟩, hpanic⟩ := hs
  obtain ⟨hreserved, houtbound, hoffered⟩ := of_decide_eq_true hfacts
  have herror : ∃ s', s.enqueueOutbound net 0 s.now HostPair.firstPacket = .error s' := by
    cases hresult : s.enqueueOutbound net 0 s.now HostPair.firstPacket with
    | error s' => exact ⟨s', rfl⟩
    | ok s' => simp [hresult, Except.isOk, Except.toBool] at hpanic
  refine ⟨net, s, hreach, ⟨k, d, mem_acceptedAt.1 hacc, of_decide_eq_true hun⟩, hreserved, houtbound, hoffered, herror, ?_⟩
  intro hunaffected
  obtain ⟨s', hok⟩ := hunaffected.enqueues s.now HostPair.firstPacket
  obtain ⟨s'', hpanicked⟩ := herror
  simp [hok] at hpanicked

end QuicWorkbench
