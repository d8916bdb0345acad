import QuicWorkbench.Proofs.Buffer
import QuicWorkbench.Proofs.Sends

/-!
# The order of what a link sends

A packet goes through the channel of its node and the queue of the link, and both are first in, first out. So what a
link has sent, and still has (its trail), is in the order in which the packets were put into the link's queue; what a
node has offered, and still has, is in the order in which it accepted the packets.
-/

namespace QuicWorkbench

/-- The stays whose packets were offered to the link, in the order in which they were put into its queue: once for each
place of the link among the candidates. -/
def offeredOn (j : LinkIx) (history : List Observation) : List Nat :=
  history.flatMap fun o => (o.offers.map fun x => List.replicate (x.2.count j) x.1).getD []

def acceptedStaysAt (i : NodeIx) (history : List Observation) : List Nat := (acceptedAt i history).map Prod.fst

/-- The stays that the node has accepted and has offered to links, in the order of the offers. -/
def offeredFrom (i : NodeIx) (history : List Observation) : List Nat :=
  (offeredStays history).filter fun k => k ∈ acceptedStaysAt i history

/-- The stays of the packets that the link has sent, or has in its task or its queue. -/
def State.trail (s : State) (j : LinkIx) : List Nat :=
  (s.sentOn j).map (·.2.stay) ++ (s.copies j).map OutgoingPacket.stay

section
variable {h : List Observation} {o : Observation} {i : NodeIx} {j : LinkIx} {k : Nat}

theorem offeredOn_snoc (j : LinkIx) (h : List Observation) (o : Observation) :
    offeredOn j (h ++ [o]) = offeredOn j h ++ (o.offers.map fun x => List.replicate (x.2.count j) x.1).getD [] := by
  simp [offeredOn]

theorem acceptedStaysAt_snoc (i : NodeIx) (h : List Observation) (o : Observation) : acceptedStaysAt i (h ++ [o]) =
    acceptedStaysAt i h ++ (o.accepts.bind fun x => if x.2.1 = i then some x.1 else none).toList := by
  rw [acceptedStaysAt, acceptedAt, List.filterMap_append, List.map_append]
  congr 1
  cases o with
  | accepted k i' d => by_cases hi : i' = i <;> simp [Observation.accepts, hi]
  | _ => rfl

theorem mem_acceptedStaysAt : k ∈ acceptedStaysAt i h ↔ ∃ d, .accepted k i d ∈ h := by
  simp only [acceptedStaysAt, List.mem_map, Prod.exists]
  constructor
  · rintro ⟨k', d, hmem, rfl⟩
    exact ⟨d, mem_acceptedAt.1 hmem⟩
  · rintro ⟨d, hmem⟩
    exact ⟨k, d, mem_acceptedAt.2 hmem, rfl⟩

theorem Observation.stay_of_sentOn (j : LinkIx) (o : Observation) :
    (o.sentOn j).map (·.2.stay) = none ∨ (o.sentOn j).map (·.2.stay) = o.handles := by
  cases o with
  | sent t j' p => by_cases hj : j' = j <;> simp [Observation.sentOn, Observation.handles, hj]
  | _ => exact .inl rfl

theorem sentOn_stays_sublist (j : LinkIx) (history : List Observation) :
    ((history.filterMap (·.sentOn j)).map (·.2.stay)).Sublist (handledStays history) := by
  rw [List.map_filterMap]
  induction history with
  | nil => exact List.Sublist.refl _
  | cons o history ih =>
    rw [handledStays, List.filterMap_cons, List.filterMap_cons]
    rcases o.stay_of_sentOn j with hnone | hsame
    · rw [hnone]
      cases o.handles with
      | none => exact ih
      | some k => exact ih.cons k
    · rw [hsame]
      cases o.handles with
      | none => exact ih
      | some k => exact ih.cons_cons k

/-- Without repetitions, the places of the link among the candidates do not matter. -/
theorem sublist_offeredStays {ks : List Nat} (hks : ks.Nodup) (hsub : ks.Sublist (offeredOn j h)) :
    ks.Sublist (offeredStays h) := by
  induction h generalizing ks with
  | nil =>
    obtain rfl : ks = [] := by simpa [offeredOn] using hsub
    exact List.Sublist.refl _
  | cons o h ih =>
    rw [offeredOn, List.flatMap_cons, List.sublist_append_iff] at hsub
    obtain ⟨first, rest, rfl, hfirst, hrest⟩ := hsub
    have hrest := ih (List.nodup_append.1 hks).2.1 hrest
    cases hoffers : o.offers with
    | none =>
      obtain rfl : first = [] := by simpa [hoffers] using hfirst
      simpa [offeredStays, hoffers] using hrest
    | some x =>
      simp only [hoffers, Option.map_some, Option.getD_some] at hfirst
      obtain ⟨n, -, rfl⟩ := List.sublist_replicate_iff.1 hfirst
      have hn : n ≤ 1 := List.nodup_replicate.1 (List.nodup_append.1 hks).1
      have hone : (List.replicate n x.1).Sublist [x.1] := List.replicate_sublist_replicate x.1 |>.2 hn
      simpa [offeredStays, hoffers] using hone.append hrest

end

/-! ### What an effect does to a trail -/

theorem LinkEffect.copies_sublist {β : Type} {net : InMemoryNetwork} {s s' : State} {j : LinkIx} (he : LinkEffect net j s s')
    (f : OutgoingPacket → β) (hf : ∀ p links, f { p with preferredLinks := links } = f p) (j' : LinkIx) :
    ((s'.copies j').map f).Sublist ((s.copies j').map f) := by
  by_cases hj : j' = j
  · subst hj
    have hdrop : ∀ {p p' : OutgoingPacket} {s₁ : State}, Picks j' s p s₁ (.ready p') →
        (s'.links j').outgoingQueue = (s₁.links j').outgoingQueue → s'.linkTasks j' = .next →
        ((s'.copies j').map f).Sublist ((s.copies j').map f) := by
      intro p p' s₁ hp hqueue htask
      rw [hp.copies, State.copies, hqueue, htask]
      exact List.sublist_cons_self ..
    cases he with
    | park p s₁ task hp =>
      obtain ⟨links, htask⟩ := hp.await
      rw [hp.copies]
      simp [State.copies, State.setLinkTask, htask, hf]
    | discard p p' s₁ hp => exact hdrop hp rfl (by simp [State.setLinkTask])
    | clear p p' s₁ hp => exact hdrop hp rfl (by simp [State.setLinkTask])
    | send p p' s₁ data slot hp =>
      refine hdrop hp ?_ (by simp [State.setLinkTask])
      simp [State.setLinkTask, State.transmit, State.observe, State.setNode, State.setLink, State.setHandled,
        State.trackPacketInTransit, State.record]
    | panicSend p p' s₁ hp => simp [State.copies, State.panicLinkTask, State.setLinkTask, State.setLink, LinkTask.packet?]
  · rw [he.copies_of_ne hj]

theorem LinkEffect.trail {net : InMemoryNetwork} {s s' : State} {j : LinkIx} (he : LinkEffect net j s s') (j' : LinkIx) :
    (s'.trail j').Sublist (s.trail j') := by
  rw [State.trail, State.trail]
  rcases he.sends with ⟨p, slot, hsend⟩ | ⟨hobserves, -⟩
  · rw [State.sentOn_snoc hsend.history]
    by_cases hj : j' = j
    · -- the packet goes from the front of the queue to the end of what was sent
      subst hj
      obtain ⟨c, hcopies, hstay, -⟩ := hsend.copy
      simp [hcopies, hstay]
    · rw [if_neg hj, List.append_nil]
      exact (List.Sublist.refl _).append (he.copies_sublist OutgoingPacket.stay (fun _ _ => rfl) j')
  · rw [State.sentOn_of_unsent hobserves]
    exact (List.Sublist.refl _).append (he.copies_sublist OutgoingPacket.stay (fun _ _ => rfl) j')

theorem State.map_copies_pushCopies {β : Type} {net : InMemoryNetwork} {s s' : State} {i : NodeIx} {packet : BufferedPacket}
    {candidates links : List LinkIx} {rolls : Nat → Roll × Roll} (f : OutgoingPacket → β) {b : β}
    (hf : ∀ j r, f (outgoing net i packet candidates j r) = b) (htasks : s'.linkTasks = s.linkTasks)
    (hlinks : s'.links = (pushCopies net i packet candidates links rolls s).links) (j : LinkIx) :
    (s'.copies j).map f = (s.copies j).map f ++ List.replicate (links.count j) b := by
  obtain ⟨links', heq, hspec⟩ := pushCopies_spec net i packet candidates links rolls s
  obtain ⟨new, hj, hlen, hnew⟩ := hspec j
  have hcopies : new.map f = List.replicate (links.count j) b := by
    rw [List.eq_replicate_iff, List.length_map]
    refine ⟨hlen, fun x hx => ?_⟩
    obtain ⟨c, hc, rfl⟩ := List.mem_map.1 hx
    obtain ⟨r, rfl⟩ := hnew c hc
    exact hf j r
  have hqueue : (s'.links j).outgoingQueue = (s.links j).outgoingQueue ++ new := by
    rw [hlinks, heq]
    exact congrArg NetworkLink.outgoingQueue hj
  rw [copies, copies, htasks, hqueue, ← List.append_assoc, List.map_append, hcopies]

theorem State.trail_pushCopies {net : InMemoryNetwork} {s s' : State} {i : NodeIx} {packet : BufferedPacket}
    {candidates links : List LinkIx} {rolls : Nat → Roll × Roll} (j : LinkIx)
    (hsent : s'.sentOn j = s.sentOn j) (htasks : s'.linkTasks = s.linkTasks)
    (hlinks : s'.links = (pushCopies net i packet candidates links rolls s).links) :
    s'.trail j = s.trail j ++ List.replicate (links.count j) packet.stay := by
  rw [trail, trail, hsent, map_copies_pushCopies OutgoingPacket.stay (fun _ _ => rfl) htasks hlinks, List.append_assoc]

/-! ### The invariant -/

structure OrderInv (s : State) : Prop where
  queue : ∀ j, (s.trail j).Sublist (offeredOn j s.history)
  channel : ∀ i, (offeredFrom i s.history ++ (s.nodes i).outbound.map BufferedPacket.stay).Sublist
    (acceptedStaysAt i s.history)
  source : ∀ j, ∀ x ∈ s.sentOn j, x.2.stay ∈ acceptedStaysAt x.2.srcNode s.history

namespace OrderInv
variable {net : InMemoryNetwork} {s s' : State}

theorem frame (h : OrderInv s) (hoffered : ∀ j, offeredOn j s'.history = offeredOn j s.history)
    (hfrom : offeredStays s'.history = offeredStays s.history)
    (haccepted : ∀ i, acceptedStaysAt i s'.history = acceptedStaysAt i s.history)
    (htrail : ∀ j, (s'.trail j).Sublist (s.trail j))
    (houtbound : ∀ i, ((s'.nodes i).outbound.map BufferedPacket.stay).Sublist ((s.nodes i).outbound.map BufferedPacket.stay))
    (hsource : ∀ j, ∀ x ∈ s'.sentOn j, x ∈ s.sentOn j ∨ x.2.stay ∈ acceptedStaysAt x.2.srcNode s.history) :
    OrderInv s' where
  queue j := by
    rw [hoffered]
    exact (htrail j).trans (h.queue j)
  channel i := by
    rw [offeredFrom, hfrom, haccepted]
    exact ((List.Sublist.refl _).append (houtbound i)).trans (h.channel i)
  source j x hx := by
    rw [haccepted]
    rcases hsource j x hx with hold | hnew
    · exact h.source j x hold
    · exact hnew

theorem frame_of_history (h : OrderInv s) (hhistory : s'.history = s.history) (hcopies : ∀ j, s'.copies j = s.copies j)
    (houtbound : ∀ i, (s'.nodes i).outbound.Sublist (s.nodes i).outbound) : OrderInv s' := by
  have hsent : ∀ j, s'.sentOn j = s.sentOn j := State.sentOn_of_observes (.inl hhistory)
  refine h.frame (fun j => by rw [hhistory]) (by rw [hhistory]) (fun i => by rw [hhistory]) (fun j => ?_)
    (fun i => (houtbound i).map _) fun j x hx => .inl (hsent j ▸ hx)
  rw [State.trail, State.trail, hsent, hcopies]

theorem quiet (h : OrderInv s) (hq : Quiet s s') : OrderInv s' :=
  h.frame_of_history hq.history (fun j => by rw [State.copies, State.copies, hq.linkTasks, hq.outgoingQueue])
    fun i => hq.outbound i ▸ List.Sublist.refl _

theorem event (h : OrderInv s) (hf : State.EventFrame s s') : OrderInv s' :=
  h.frame_of_history hf.history (fun j => by rw [State.copies, State.copies, hf.linkTasks, hf.outgoingQueue])
    fun i => hf.outbound i ▸ List.Sublist.refl _

theorem endNodeTask (h : OrderInv s) (i : NodeIx) (task : NodeTask) : OrderInv (s.endNodeTask i task) := by
  refine h.frame_of_history rfl (fun j => rfl) fun i' => ?_
  by_cases hi : i' = i
  · simp [State.endNodeTask, State.setNodeTask, State.setNode, hi]
  · simp [State.endNodeTask, State.setNodeTask, State.setNode, hi]

theorem accept (h : OrderInv s) {k : Nat} {i : NodeIx} {d : InTransitData} (hfresh : k ∉ offeredStays s.history)
    (hhistory : s'.history = s.history ++ [.accepted k i d]) (hcopies : ∀ j, s'.copies j = s.copies j)
    (houtbound : ∀ i', i' ≠ i → (s'.nodes i').outbound = (s.nodes i').outbound)
    (hself : ((s'.nodes i).outbound.map BufferedPacket.stay).Sublist ((s.nodes i).outbound.map BufferedPacket.stay ++ [k])) :
    OrderInv s' := by
  have hsent : ∀ j, s'.sentOn j = s.sentOn j :=
    State.sentOn_of_observes (.inr ⟨.accepted k i d, rfl, hhistory⟩)
  have hoffered : offeredStays s'.history = offeredStays s.history := by
    rw [hhistory, offeredStays_snoc]
    exact List.append_nil _
  have haccepted : ∀ i', acceptedStaysAt i' s'.history = acceptedStaysAt i' s.history ++ if i = i' then [k] else [] := by
    intro i'
    rw [hhistory, acceptedStaysAt_snoc]
    by_cases hi : i = i' <;> simp [Observation.accepts, hi]
  have hfrom : ∀ i', offeredFrom i' s'.history = offeredFrom i' s.history := by
    intro i'
    rw [offeredFrom, offeredFrom, hoffered, haccepted]
    refine List.filter_congr fun k' hk' => ?_
    have hne : k' ≠ k := by
      rintro rfl
      exact hfresh hk'
    by_cases hi : i = i' <;> simp [hi, hne]
  refine ⟨fun j => ?_, fun i' => ?_, fun j x hx => ?_⟩
  · rw [hhistory, offeredOn_snoc]
    simpa [State.trail, hsent, hcopies, Observation.offers] using h.queue j
  · rw [hfrom, haccepted]
    by_cases hi : i' = i
    · subst hi
      rw [if_pos rfl]
      refine ((List.Sublist.refl _).append hself).trans ?_
      rw [← List.append_assoc]
      exact (h.channel i').append (List.Sublist.refl _)
    · rw [if_neg (Ne.symm hi), List.append_nil, houtbound i' hi]
      exact h.channel i'
  · rw [haccepted]
    exact List.mem_append_left _ (h.source j x (hsent j ▸ hx))

theorem offer (h : OrderInv s) (hstays : StaysInv net s) {i : NodeIx} {packet : BufferedPacket}
    {outbound : List BufferedPacket} {candidates links : List LinkIx} {rolls : Nat → Roll × Roll}
    (hnext : (s.nodes i).outbound = packet :: outbound) (hlinks : ∀ j, links.count j ≤ candidates.count j) :
    OrderInv (State.pushCopies net i packet candidates links rolls (s.takeOutbound i packet outbound candidates)) := by
  obtain ⟨hacc, -⟩ := hstays.outbound i packet (by simp [hnext])
  have hhistory : (State.pushCopies net i packet candidates links rolls (s.takeOutbound i packet outbound candidates)).history =
      s.history ++ [.offered packet.stay candidates] := by
    rw [State.pushCopies_eq]
    rfl
  have hnodes : (State.pushCopies net i packet candidates links rolls (s.takeOutbound i packet outbound candidates)).nodes =
      (s.takeOutbound i packet outbound candidates).nodes := by rw [State.pushCopies_eq]
  have htasks : (State.pushCopies net i packet candidates links rolls
      (s.takeOutbound i packet outbound candidates)).linkTasks = s.linkTasks := by
    rw [State.pushCopies_eq]
    rfl
  have htrail : ∀ j, (State.pushCopies net i packet candidates links rolls
      (s.takeOutbound i packet outbound candidates)).trail j = s.trail j ++ List.replicate (links.count j) packet.stay := by
    intro j
    have hsame : (s.takeOutbound i packet outbound candidates).trail j = s.trail j := by
      rw [State.trail, State.trail, State.sentOn_of_observes (.inr ⟨.offered packet.stay candidates, rfl, rfl⟩)]
      rfl
    rw [← hsame]
    refine State.trail_pushCopies j ?_ htasks rfl
    rw [State.sentOn, State.sentOn, State.pushCopies_eq]
  generalize State.pushCopies net i packet candidates links rolls (s.takeOutbound i packet outbound candidates) = s'
    at hhistory hnodes htasks htrail
  have hsent : ∀ j, s'.sentOn j = s.sentOn j :=
    State.sentOn_of_observes (.inr ⟨.offered packet.stay candidates, rfl, hhistory⟩)
  have haccepted : ∀ i', acceptedStaysAt i' s'.history = acceptedStaysAt i' s.history := by
    intro i'
    rw [hhistory, acceptedStaysAt_snoc]
    exact List.append_nil _
  have hoffered : offeredStays s'.history = offeredStays s.history ++ [packet.stay] := by
    rw [hhistory, offeredStays_snoc]
    rfl
  refine ⟨fun j => ?_, fun i' => ?_, fun j x hx => ?_⟩
  · rw [htrail, hhistory, offeredOn_snoc]
    exact (h.queue j).append ((List.replicate_sublist_replicate _).2 (hlinks j))
  · rw [offeredFrom, hoffered, haccepted, List.filter_append]
    have hchannel := h.channel i'
    by_cases hi : i' = i
    · subst hi
      have hmem : packet.stay ∈ acceptedStaysAt i' s.history := mem_acceptedStaysAt.2 ⟨_, hacc⟩
      have hout : (s'.nodes i').outbound = outbound := by
        rw [hnodes]
        simp [State.takeOutbound, State.observe, State.setNode]
      rw [hnext, List.map_cons] at hchannel
      simpa [hmem, hout, offeredFrom] using hchannel
    · have hmem : packet.stay ∉ acceptedStaysAt i' s.history := by
        intro hmem
        obtain ⟨d, hacc'⟩ := mem_acceptedStaysAt.1 hmem
        exact hi (accepted_unique hstays.acceptedNodup hacc hacc').1
      have hout : (s'.nodes i').outbound = (s.nodes i').outbound := by
        rw [hnodes]
        simp [State.takeOutbound, State.observe, State.setNode, hi]
      simpa [hmem, hout, offeredFrom] using hchannel
  · rw [haccepted]
    exact h.source j x (hsent j ▸ hx)

theorem stayEffect (h : OrderInv s) (hstays : StaysInv net s) (he : StayEffect net s s') : OrderInv s' := by
  have hfresh : s.nextStay ∉ offeredStays s.history := by
    intro hmem
    obtain ⟨links, hoff⟩ := mem_offeredStays.1 hmem
    obtain ⟨i, d, hacc, -⟩ := hstays.offered _ _ hoff
    exact Nat.lt_irrefl _ (hstays.acceptedLt _ (mem_acceptedStays.2 ⟨i, d, hacc⟩))
  cases he with
  | accept i d buffer hbuffer htask =>
    refine h.accept hfresh (k := s.nextStay) (i := i) (d := d) rfl (fun j => rfl) (fun i' hi => ?_) ?_
    · rw [State.outbound_pushOutbound_accept, if_neg hi, List.append_nil]
    · rw [State.outbound_pushOutbound_accept, if_pos rfl, List.map_append, List.map_singleton]
  | acceptInVain i d buffer hbuffer htask =>
    refine h.accept hfresh (k := s.nextStay) (i := i) (d := d) rfl (fun j => rfl) (fun i' hi => ?_) ?_
    · rw [State.outbound_accept]
    · rw [State.outbound_accept]
      exact List.sublist_append_left _ _
  | offer i packet outbound links rolls htask hnext hlinks hall => exact h.offer hstays hnext fun j => Nat.le_refl _
  | panicOffer i packet outbound links done rest j rolls htask hnext hlinks hsplit hpanicked =>
    refine (h.offer hstays hnext fun j' => ?_).endNodeTask i _
    rw [hsplit, List.count_append]
    exact Nat.le_add_right _ _
  | endNodeTask i task htask hend => exact h.endNodeTask i task

theorem linkEffect (h : OrderInv s) (hstays : StaysInv net s) {j : LinkIx} (he : LinkEffect net j s s') : OrderInv s' := by
  have houtbound : ∀ i, ((s'.nodes i).outbound.map BufferedPacket.stay).Sublist ((s.nodes i).outbound.map BufferedPacket.stay) :=
    fun i => by rw [he.outbound]
  rcases he.sends with ⟨p, slot, hsend⟩ | ⟨heq | ⟨o, ho, haccepts, hoffers, heq⟩, -⟩
  · obtain ⟨c, hcopies, hstay, hsource, -⟩ := hsend.copy
    refine h.frame (fun j' => ?_) ?_ (fun i => ?_) he.trail houtbound fun j' x hx => ?_
    · rw [hsend.history, offeredOn_snoc]
      exact List.append_nil _
    · rw [hsend.history, offeredStays_snoc]
      exact List.append_nil _
    · rw [hsend.history, acceptedStaysAt_snoc]
      exact List.append_nil _
    · rw [State.sentOn_snoc hsend.history] at hx
      rcases List.mem_append.1 hx with hx | hx
      · exact .inl hx
      · have hacc := (hstays.copy j c (hcopies ▸ List.mem_cons_self ..)).1
        split_ifs at hx
        · rw [List.mem_singleton.1 hx]
          refine .inr (mem_acceptedStaysAt.2 ⟨c.data, ?_⟩)
          rw [← hstay, ← hsource]
          exact hacc
        · simp at hx
  · exact h.frame (fun j' => by rw [heq]) (by rw [heq]) (fun i => by rw [heq]) he.trail houtbound
      fun j' x hx => .inl (State.sentOn_of_observes (.inl heq) j' ▸ hx)
  · refine h.frame (fun j' => ?_) ?_ (fun i => ?_) he.trail houtbound
      fun j' x hx => .inl (State.sentOn_of_observes (.inr ⟨o, ho, heq⟩) j' ▸ hx)
    · simp [heq, offeredOn_snoc, hoffers]
    · simp [heq, offeredStays_snoc, hoffers]
    · simp [heq, acceptedStaysAt_snoc, haccepts]

theorem preserved (net : InMemoryNetwork) : Preserved net fun σ => StaysInv net σ.state ∧ OrderInv σ.state where
  effect σ σ' he h := by
    refine ⟨(StaysInv.preserved net).effect σ σ' he h.1, ?_⟩
    rcases he.quiet_or_stay with hq | hs
    · exact h.2.quiet hq
    · exact h.2.stayEffect h.1 hs
  link j s s' hj he h := ⟨h.1.linkEffect he, h.2.linkEffect h.1 he⟩
  linkEvent s event h :=
    have hf := s.processLinkEvent_frame net event
    ⟨h.1.event hf, h.2.event hf⟩
  nodeEvent s event h :=
    have hf := s.processNodeEvent_frame net event
    ⟨h.1.event hf, h.2.event hf⟩
  events s events h := ⟨{ h.1 with }, { h.2 with }⟩

theorem initial (net : InMemoryNetwork) (now : Nat) (events : List NetworkEvent) : OrderInv (net.initialState now events) where
  queue j := by simp [State.trail, State.sentOn, State.copies, InMemoryNetwork.initialState, NetworkLink.new, LinkTask.packet?]
  channel i := by simp [offeredFrom, offeredStays, InMemoryNetwork.initialState, NodeState.new]
  source j x hx := by simp [State.sentOn, InMemoryNetwork.initialState] at hx

end OrderInv

/-- What a link has sent of a node's packets is in the order in which the node accepted them. -/
theorem OrderInv.sublist_accepted {net : InMemoryNetwork} {s : State} (h : OrderInv s) (hstays : StaysInv net s) (j : LinkIx)
    (i : NodeIx) : (((s.sentOn j).filter fun x => x.2.srcNode = i).map (·.2.stay)).Sublist (acceptedStaysAt i s.history) := by
  have hof : (((s.sentOn j).filter fun x => x.2.srcNode = i).map (·.2.stay)).Sublist ((s.sentOn j).map (·.2.stay)) :=
    List.filter_sublist.map _
  have hqueue : ((s.sentOn j).map (·.2.stay)).Sublist (offeredOn j s.history) :=
    (List.sublist_append_left ..).trans (h.queue j)
  have hoffered : (((s.sentOn j).filter fun x => x.2.srcNode = i).map (·.2.stay)).Sublist (offeredStays s.history) :=
    sublist_offeredStays (hstays.handledNodup.sublist (hof.trans (sentOn_stays_sublist j s.history))) (hof.trans hqueue)
  have hmine : ∀ k ∈ ((s.sentOn j).filter fun x => x.2.srcNode = i).map (·.2.stay), k ∈ acceptedStaysAt i s.history := by
    intro k hk
    obtain ⟨x, hx, rfl⟩ := List.mem_map.1 hk
    obtain ⟨hx, hi⟩ := List.mem_filter.1 hx
    exact of_decide_eq_true hi ▸ h.source j x hx
  have hfrom : (((s.sentOn j).filter fun x => x.2.srcNode = i).map (·.2.stay)).Sublist (offeredFrom i s.history) := by
    rw [← List.filter_eq_self.2 fun k hk => decide_eq_true (hmine k hk)]
    exact hoffered.filter _
  exact hfrom.trans ((List.sublist_append_left ..).trans (h.channel i))

end QuicWorkbench
