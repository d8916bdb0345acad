import QuicWorkbench.Proofs.Places
import QuicWorkbench.Proofs.Sends

/-!
# One packet moves at a time

What the effects do to the whereabouts of packets: a task puts the packet that it holds next somewhere else
(`replaceHead`), into an inbound queue (`sendInbound`), into an outbound buffer (`accept`), or away; it takes up a
new packet (`introduceId`); or a link task sends a packet of a buffer (`send`), or drops it (`clear`).
-/

namespace QuicWorkbench

theorem State.pushCopies_rest (net : InMemoryNetwork) (i : NodeIx) (packet : BufferedPacket)
    (candidates links : List LinkIx) (rolls : Nat → Roll × Roll) (s : State) :
    (pushCopies net i packet candidates links rolls s).now = s.now ∧
      (pushCopies net i packet candidates links rolls s).generated = s.generated ∧
      (pushCopies net i packet candidates links rolls s).log = s.log := by
  rw [pushCopies_eq]
  exact ⟨rfl, rfl, rfl⟩

namespace NothingNew
variable {net : InMemoryNetwork} {s s' s'' : State}

theorem trans (h : NothingNew s s') (h' : NothingNew s' s'') : NothingNew s s'' where
  accepted k i d hacc := h.accepted k i d (h'.accepted k i d hacc)
  handled k hk := h'.handled k (h.handled k hk)
  inTransit j := (h'.inTransit j).trans (h.inTransit j)
  inbound i := (h'.inbound i).trans (h.inbound i)
  since k t ht := h.since k t (h'.since k t ht)

theorem offer {i : NodeIx} {packet : BufferedPacket} {outbound : List BufferedPacket} {links done : List LinkIx}
    {rolls : Nat → Roll × Roll} (hnext : (s.nodes i).outbound = packet :: outbound) :
    NothingNew s (State.pushCopies net i packet links done rolls (s.takeOutbound i packet outbound links)) := by
  obtain ⟨links', heq, hlinks⟩ := State.pushCopies_spec net i packet links done rolls (s.takeOutbound i packet outbound links)
  rw [heq]
  have hlinks : ∀ j, ∃ new, links' j = { s.links j with outgoingQueue := (s.links j).outgoingQueue ++ new } ∧
      ∀ c ∈ new, ∃ r, c = State.outgoing net i packet links j r := fun j => by
    obtain ⟨new, hj, -, hnew⟩ := hlinks j
    exact ⟨new, hj, hnew⟩
  refine .of_history (.inr ⟨.offered packet.stay links, rfl, rfl⟩) (fun j => ?_) (fun i' => ?_) (fun i' b hb => ?_)
    fun j c hc => ?_
  · obtain ⟨new, hj, -⟩ := hlinks j
    simp [hj]
  · by_cases hi : i' = i <;> simp [State.takeOutbound, State.observe, State.setNode, hi]
  · by_cases hi : i' = i
    · subst hi
      have hb : b ∈ outbound := by simpa [State.takeOutbound, State.observe, State.setNode] using hb
      exact hnext ▸ List.mem_cons_of_mem _ hb
    · simpa [State.takeOutbound, State.observe, State.setNode, hi] using hb
  · obtain ⟨new, hj, hnew⟩ := hlinks j
    have hc : c ∈ s.copies j ∨ c ∈ new := by
      simp only [State.copies, hj, List.mem_append] at hc ⊢
      simpa [State.takeOutbound, State.observe, State.setNode, or_assoc] using hc
    rcases hc with hc | hc
    · exact .copy hc
    · obtain ⟨r, rfl⟩ := hnew c hc
      exact .outbound (hnext ▸ List.mem_cons_self ..)

theorem endNodeTask (s : State) (i : NodeIx) (task : NodeTask) : NothingNew s (s.endNodeTask i task) := by
  refine .of_history (.inl rfl) (fun _ => rfl) (fun i' => ?_) (fun i' b hb => ?_) fun j c hc => .copy hc
  · by_cases hi : i' = i <;> simp [State.endNodeTask, State.setNodeTask, State.setNode, hi]
  · by_cases hi : i' = i
    · subst hi
      simp [State.endNodeTask, State.setNodeTask, State.setNode] at hb
    · simpa [State.endNodeTask, State.setNodeTask, State.setNode, hi] using hb

end NothingNew

theorem LinkEffect.nothingNew {net : InMemoryNetwork} {s s' : State} {j : LinkIx} (h : LinkEffect net j s s')
    (hunsent : s'.history = s.history ∨ ∃ o : Observation, o.isSent = false ∧ s'.history = s.history ++ [o]) :
    NothingNew s s' := by
  rcases h.sends with ⟨p, slot, hsend⟩ | ⟨hobserves, -, hinTransit⟩
  · rcases hunsent with heq | ⟨o, ho, heq⟩
    · simp [hsend.history] at heq
    · obtain rfl : .sent s.now j p = o := by simpa [hsend.history] using heq
      simp [Observation.isSent] at ho
  · have hhistory : s'.history = s.history ∨ ∃ o, s'.history = s.history ++ [o] ∧ o.accepts = none := by
      rcases hobserves with heq | ⟨o, -, ho, -, heq⟩
      · exact .inl heq
      · exact .inr ⟨o, heq, ho⟩
    refine .of_history hhistory (fun j' => ?_) (fun i => by rw [h.inbound])
      (fun i b hb => h.outbound i ▸ hb) (NothingNew.of_copies h.copies_same)
    by_cases hj : j' = j
    · rw [hj, hinTransit]
    · rw [h.inTransit_of_ne hj]

namespace PlacesInv
variable {net : InMemoryNetwork} {w : Whereabouts} {s s' : State} {held held' hs : List (Place × InTransitData)}
  {p p' : Place} {d d' : InTransitData}

theorem head (h : PlacesInv net w ⟨(p, d) :: hs, s⟩) : (∃ since, w d.id = some ⟨true, p, d.packetSize, since⟩) ∧
    (∀ x ∈ hs, x.2.id ≠ d.id) ∧ ∀ q d', Scene.At ⟨(p, d) :: hs, s⟩ false q d' → d'.id ≠ d.id := by
  refine ⟨h.places _ _ _ (.held (List.mem_cons_self ..)), fun x hx heq => ?_, fun q d' hd' => ?_⟩
  · have hnodup := h.heldNodup
    rw [List.map_cons, List.nodup_cons] at hnodup
    exact hnodup.1 (heq ▸ List.mem_map_of_mem (f := fun x : Place × InTransitData => x.2.id) hx)
  · exact h.held_unique (List.mem_cons_self ..) hd'

theorem tailNodup (h : PlacesInv net w ⟨(p, d) :: hs, s⟩) : (hs.map fun x => x.2.id).Nodup := by
  have hnodup := h.heldNodup
  rw [List.map_cons, List.nodup_cons] at hnodup
  exact hnodup.2

theorem replaceHead (h : PlacesInv net w ⟨(p, d) :: hs, s⟩) (hq : NothingNew s s') (hnow : s'.now = s.now)
    (hgen : s'.generated = s.generated) {e' : Option Entry}
    (hheld : held' = hs ∨ ∃ p', held' = (p', d) :: hs ∧ (∀ j sent, p' ≠ .transit j sent) ∧
      e' = some ⟨true, p', d.packetSize, s.now⟩)
    (hvalid : ∀ e, e' = some e → e.place.Valid net s.now) (hcurrent : ∀ e, e' = some e → e.held → e.since = s.now) :
    PlacesInv net (Function.update w d.id e') ⟨held', s'⟩ := by
  obtain ⟨⟨since, hw⟩, hne, hqueued⟩ := h.head
  refine h.reheld hq hnow hqueued (fun x hx => ?_) ?_ (fun u hu => hgen ▸ hu)
    (fun e _ => hgen ▸ h.generated _ _ hw) hvalid hcurrent
  · rcases hheld with rfl | ⟨p', rfl, hp', he'⟩
    · exact .inl ⟨List.mem_cons_of_mem _ hx, hne x hx⟩
    · rcases List.mem_cons.1 hx with rfl | hx
      · exact .inr ⟨rfl, hp', s.now, he'⟩
      · exact .inl ⟨List.mem_cons_of_mem _ hx, hne x hx⟩
  · rcases hheld with rfl | ⟨p', rfl, -, -⟩
    · exact h.tailNodup
    · exact h.heldNodup

theorem introduceId (h : PlacesInv net w ⟨held, s⟩) {uuid : Uuid} (hnew : uuid ∉ s.generated) (hid : d.id = uuid)
    (hp : ∀ j sent, p ≠ .transit j sent) (hvalid : p.Valid net s.now) (hheld : held'.Perm ((p, d) :: held))
    (hq : NothingNew s s') (hnow : s'.now = s.now) (hgen : s'.generated = s.generated ++ [uuid]) :
    PlacesInv net (Function.update w uuid (some ⟨true, p, d.packetSize, s.now⟩)) ⟨held', s'⟩ := by
  have hfresh : ∀ b q d', Scene.At ⟨held, s⟩ b q d' → d'.id ≠ uuid := fun b q d' hd' heq => by
    obtain ⟨t, ht⟩ := h.places _ _ _ hd'
    exact hnew (heq ▸ h.generated _ _ ht)
  refine h.reheld hq hnow (fun q d' hd' => hfresh _ q d' hd') (fun x hx => ?_) ?_
    (fun u hu => hgen ▸ List.mem_append_left _ hu) (fun e _ => hgen ▸ List.mem_append_right _ (List.mem_singleton_self _))
    (fun e he => ?_) fun e he _ => ?_
  · rcases List.mem_cons.1 (hheld.subset hx) with rfl | hx
    · exact .inr ⟨hid, hp, s.now, rfl⟩
    · exact .inl ⟨hx, hfresh _ _ _ (.held (σ := ⟨held, s⟩) hx)⟩
  · rw [(hheld.map _).nodup_iff, List.map_cons, List.nodup_cons]
    refine ⟨fun hmem => ?_, h.heldNodup⟩
    obtain ⟨x, hx, heq⟩ := List.mem_map.1 hmem
    exact hfresh _ _ _ (.held (σ := ⟨held, s⟩) hx) (heq.trans hid)
  · obtain rfl := Option.some.inj he
    exact hvalid
  · obtain rfl := Option.some.inj he
    rfl

theorem nodup_push {α : Type} {f : α → Uuid} {q : List α} {x : α} {slot : Nat} (h : (q.map f).Nodup)
    (hx : ∀ y ∈ q, f y ≠ f x) : ((MaxHeap.push slot x q).map f).Nodup := by
  rw [((MaxHeap.push_perm slot x q).map f).nodup_iff, List.map_cons, List.nodup_cons]
  refine ⟨fun hmem => ?_, h⟩
  obtain ⟨y, hy, heq⟩ := List.mem_map.1 hmem
  exact hx y hy heq

theorem sendInbound {i : NodeIx} (h : PlacesInv net w ⟨(.node i, d) :: hs, s⟩) (slot : Nat) {since : Nat}
    (hw : w d.id = some ⟨true, .node i, d.packetSize, since⟩) :
    PlacesInv net (Function.update w d.id (some ⟨false, .inbound i, d.packetSize, since⟩)) ⟨hs, s.sendInbound i d slot⟩ := by
  obtain ⟨-, hne, hqueued⟩ := h.head
  have hq : ∀ i', ((s.sendInbound i d slot).nodes i').inbound.queue =
      if i' = i then MaxHeap.push slot ⟨d, s.now, 0⟩ (s.nodes i).inbound.queue else (s.nodes i').inbound.queue := fun i' => by
    by_cases hi : i' = i <;> simp [State.sendInbound, State.setNode, InboundQueue.send, hi]
  have hout : ∀ i', ((s.sendInbound i d slot).nodes i').outbound = (s.nodes i').outbound := fun i' => by
    by_cases hi : i' = i <;> simp [State.sendInbound, State.setNode, hi]
  refine h.transfer ⟨hs, s.sendInbound i d slot⟩ rfl (fun b q d' hd' => ?_) h.tailNodup h.inTransitNodup (fun i' => ?_) (fun u hu => hu)
    (fun e _ => h.generated _ _ hw) (fun e he => ?_) (fun e he hheld => ?_) (fun k i' d' t hd' ht => ?_)
    (fun j e he => .inl he) fun j sent d' hx => List.mem_cons_of_mem _ hx
  · cases hd' with
    | held hx => exact .inl ⟨.held (List.mem_cons_of_mem _ hx), hne _ hx⟩
    | inTransit he => exact .inl ⟨.inTransit he, hqueued _ _ (.inTransit he)⟩
    | stay hacc hun => exact .inl ⟨.stay hacc hun, hqueued _ _ (.stay hacc hun)⟩
    | @inbound i' e he =>
      rw [hq i'] at he
      split_ifs at he with hi
      · subst hi
        rcases MaxHeap.mem_push.1 he with rfl | he
        · exact .inr ⟨rfl, since, rfl⟩
        · exact .inl ⟨.inbound he, hqueued _ _ (.inbound he)⟩
      · exact .inl ⟨.inbound he, hqueued _ _ (.inbound he)⟩
  · show (((s.sendInbound i d slot).nodes i').inbound.queue.map _).Nodup
    rw [hq i']
    split_ifs with hi
    · exact nodup_push (h.inboundNodup i) fun e he => hqueued _ _ (.inbound he)
    · exact h.inboundNodup i'
  · obtain rfl := Option.some.inj he
    exact (h.valid _ _ hw : (Place.node i).Valid net s.now)
  · obtain rfl := Option.some.inj he
    simp at hheld
  · have hold : Scene.At ⟨(.node i, d) :: hs, s⟩ false (.stay k i') d' := by
      cases hd' with
      | stay hacc hun => exact .stay hacc hun
    refine ⟨fun _ => ?_, fun hid => absurd hid (hqueued _ _ hold)⟩
    cases ht with
    | outbound hb => exact .outbound (hout _ ▸ hb)
    | copy hc => exact .copy hc

theorem id_notMem_batch {σ : Scene} (h : PlacesInv net w σ) {p : Place} {d : InTransitData} (hd : σ.At false p d)
    {batch : List PrioritizedInTransitData} (place : PrioritizedInTransitData → Place)
    (hbatch : ∀ e ∈ batch, σ.At false (place e) e.data) (hp : ∀ e ∈ batch, p ≠ place e) :
    d.id ∉ batch.map fun e => e.data.id := by
  intro hmem
  obtain ⟨e, he, heq⟩ := List.mem_map.1 hmem
  obtain ⟨t, ht⟩ := h.places _ _ _ (hbatch e he)
  obtain ⟨t', ht'⟩ := h.places _ _ _ hd
  rw [← heq, ht] at ht'
  simp only [Option.some.injEq, Entry.mk.injEq] at ht'
  exact hp e he ht'.2.1.symm

theorem takeInTransit {j : LinkIx} {q : InboundQueue} {batch : List PrioritizedInTransitData}
    (h : PlacesInv net w ⟨held, s⟩) (delivery : NextPacketDelivery)
    (hperm : (s.links j).inTransit.queue.Perm (batch ++ q.queue)) (hdue : ∀ p ∈ batch, p.arrivalTime ≤ s.now) :
    PlacesInv net (fun u => (w u).map fun e =>
        if u ∈ (batch.map (·.onLink j)).map (fun x => x.2.id) then { e with held := true } else e)
      ⟨batch.map (·.onLink j) ++ held, (s.setInTransit j q).setForwarder j (.awaiting delivery)⟩ := by
  have hqueue : ∀ j', (((s.setInTransit j q).setForwarder j (.awaiting delivery)).links j').inTransit.queue =
      if j' = j then q.queue else (s.links j').inTransit.queue := fun j' => by
    by_cases hj : j' = j <;> simp [State.setInTransit, State.setForwarder, State.setLink, hj]
  have hnodup : ((batch ++ q.queue).map fun e => e.data.id).Nodup := (hperm.map _).nodup_iff.1 (h.inTransitNodup j)
  rw [List.map_append, List.nodup_append] at hnodup
  have hids : (batch.map (·.onLink j)).map (fun x => x.2.id) = batch.map fun e => e.data.id := by
    rw [List.map_map]
    rfl
  have hold : ∀ e ∈ batch ++ q.queue, Scene.At ⟨held, s⟩ false (.transit j e.sent) e.data := fun e he =>
    .inTransit (hperm.mem_iff.2 he)
  refine h.takeUp (fun x hx => ?_) ?_ (fun p d hd => ?_) (fun j' => ?_) (fun i => List.Subperm.refl _) rfl rfl
    (fun k t ht => ?_) fun j' sent d hx => ?_
  · obtain ⟨e, he, rfl⟩ := List.mem_map.1 hx
    exact ⟨hold e (List.mem_append_left _ he), by simp [PrioritizedInTransitData.onLink]⟩
  · rw [hids]
    exact hnodup.1
  · rw [hids]
    have hother : ∀ p d, Scene.At ⟨held, s⟩ false p d → (∀ sent, p ≠ .transit j sent) →
        d.id ∉ batch.map fun e => e.data.id := fun p d hd hp =>
      h.id_notMem_batch hd (fun e => .transit j e.sent) (fun e he => hold e (List.mem_append_left _ he)) fun e _ => hp e.sent
    cases hd with
    | inbound he => exact ⟨.inbound he, hother _ _ (.inbound he) (by simp)⟩
    | stay hacc hun => exact ⟨.stay hacc hun, hother _ _ (.stay hacc hun) (by simp)⟩
    | @inTransit j' e he =>
      rw [hqueue j'] at he
      split_ifs at he with hj
      · subst hj
        refine ⟨hold e (List.mem_append_right _ he), fun hmem => ?_⟩
        exact hnodup.2.2 _ hmem _ (List.mem_map_of_mem (f := fun e : PrioritizedInTransitData => e.data.id) he) rfl
      · exact ⟨.inTransit he, hother _ _ (.inTransit he) (by simp [hj])⟩
  · rw [hqueue j']
    split_ifs with hj
    · subst hj
      exact (List.sublist_append_right _ _).subperm.trans hperm.symm.subperm
    · exact List.Subperm.refl _
  · cases ht with
    | outbound hb => exact .outbound hb
    | @copy j' c hc =>
      refine .copy (j := j') ?_
      by_cases hj : j' = j
      · subst hj
        simpa [State.copies, State.setInTransit, State.setForwarder, State.setLink] using hc
      · simpa [State.copies, State.setInTransit, State.setForwarder, State.setLink, hj] using hc
  · obtain ⟨e, he, heq⟩ := List.mem_map.1 hx
    simp only [PrioritizedInTransitData.onLink, Prod.mk.injEq, Place.transit.injEq] at heq
    obtain ⟨⟨rfl, rfl⟩, -⟩ := heq
    have hdelay := h.delays j e (hperm.mem_iff.2 (List.mem_append_left _ he))
    have harrival := hdue e he
    rw [PrioritizedInTransitData.arrivalTime] at harrival
    exact (Nat.add_le_add_left hdelay _).trans harrival

theorem takeInbound {i : NodeIx} {q : InboundQueue} {batch : List PrioritizedInTransitData}
    (h : PlacesInv net w ⟨held, s⟩) (delivery : NextPacketDelivery)
    (hperm : (s.nodes i).inbound.queue.Perm (batch ++ q.queue)) :
    PlacesInv net (fun u => (w u).map fun e =>
        if u ∈ (batch.map (·.atHost i)).map (fun x => x.2.id) then { e with held := true } else e)
      ⟨batch.map (·.atHost i) ++ held,
        { s.setNode i { s.nodes i with inbound := q } with sockets := Function.update s.sockets i (some delivery) }⟩ := by
  have hqueue : ∀ i', ((s.setNode i { s.nodes i with inbound := q }).nodes i').inbound.queue =
      if i' = i then q.queue else (s.nodes i').inbound.queue := fun i' => by
    by_cases hi : i' = i <;> simp [State.setNode, hi]
  have hnodup : ((batch ++ q.queue).map fun e => e.data.id).Nodup := (hperm.map _).nodup_iff.1 (h.inboundNodup i)
  rw [List.map_append, List.nodup_append] at hnodup
  have hids : (batch.map (·.atHost i)).map (fun x => x.2.id) = batch.map fun e => e.data.id := by
    rw [List.map_map]
    rfl
  have hold : ∀ e ∈ batch ++ q.queue, Scene.At ⟨held, s⟩ false (.inbound i) e.data := fun e he =>
    .inbound (hperm.mem_iff.2 he)
  refine h.takeUp (fun x hx => ?_) ?_ (fun p d hd => ?_) (fun j => List.Subperm.refl _) (fun i' => ?_) rfl rfl
    (fun k t ht => ?_) fun j sent d hx => ?_
  · obtain ⟨e, he, rfl⟩ := List.mem_map.1 hx
    exact ⟨hold e (List.mem_append_left _ he), by simp [PrioritizedInTransitData.atHost]⟩
  · rw [hids]
    exact hnodup.1
  · rw [hids]
    have hother : ∀ p d, Scene.At ⟨held, s⟩ false p d → p ≠ .inbound i → d.id ∉ batch.map fun e => e.data.id :=
      fun p d hd hp =>
        h.id_notMem_batch hd (fun _ => .inbound i) (fun e he => hold e (List.mem_append_left _ he)) fun _ _ => hp
    cases hd with
    | inTransit he => exact ⟨.inTransit he, hother _ _ (.inTransit he) (by simp)⟩
    | stay hacc hun => exact ⟨.stay hacc hun, hother _ _ (.stay hacc hun) (by simp)⟩
    | @inbound i' e he =>
      have hq : e ∈ ((s.setNode i { s.nodes i with inbound := q }).nodes i').inbound.queue := he
      rw [hqueue i'] at hq
      split_ifs at hq with hi
      · subst hi
        refine ⟨hold e (List.mem_append_right _ hq), fun hmem => ?_⟩
        exact hnodup.2.2 _ hmem _ (List.mem_map_of_mem (f := fun e : PrioritizedInTransitData => e.data.id) hq) rfl
      · exact ⟨.inbound hq, hother _ _ (.inbound hq) (by simp [hi])⟩
  · show ((s.setNode i { s.nodes i with inbound := q }).nodes i').inbound.queue.Subperm _
    rw [hqueue i']
    split_ifs with hi
    · subst hi
      exact (List.sublist_append_right _ _).subperm.trans hperm.symm.subperm
    · exact List.Subperm.refl _
  · cases ht with
    | copy hc => exact .copy hc
    | @outbound i' b hb =>
      refine .outbound (i := i') ?_
      by_cases hi : i' = i
      · subst hi
        simpa [State.setNode] using hb
      · simpa [State.setNode, hi] using hb
  · simp [PrioritizedInTransitData.atHost] at hx

theorem accept {i : NodeIx} (h : PlacesInv net w ⟨(.node i, d) :: hs, s⟩) (hstays : StaysInv net s)
    (hw : w d.id = some ⟨true, .node i, d.packetSize, s.now⟩)
    (hhistory : s'.history = s.history ++ [.accepted s.nextStay i d]) (hnow : s'.now = s.now)
    (hgen : s'.generated = s.generated) (hlinks : s'.links = s.links) (htasks : s'.linkTasks = s.linkTasks)
    (hinbound : ∀ i', (s'.nodes i').inbound = (s.nodes i').inbound)
    (houtbound : ∀ i', ∀ b ∈ (s'.nodes i').outbound, b ∈ (s.nodes i').outbound ∨
      b = { inNodeSince := s.now, data := d, stay := s.nextStay }) :
    PlacesInv net (Function.update w d.id (some ⟨false, .stay s.nextStay i, d.packetSize, s.now⟩)) ⟨hs, s'⟩ := by
  obtain ⟨-, hne, hqueued⟩ := h.head
  have hfresh : ∀ i' d', .accepted s.nextStay i' d' ∉ s.history := fun i' d' hacc =>
    Nat.lt_irrefl _ (hstays.acceptedLt _ (mem_acceptedStays.2 ⟨i', d', hacc⟩))
  have hhandled : handledStays s'.history = handledStays s.history := by
    rw [hhistory, handledStays_snoc]
    simp [Observation.handles]
  -- what is at a stay is what was, or the packet
  have hstay : ∀ k i' d', Scene.At ⟨hs, s'⟩ false (.stay k i') d' →
      Scene.At ⟨(.node i, d) :: hs, s⟩ false (.stay k i') d' ∧ k ≠ s.nextStay ∨ k = s.nextStay ∧ i' = i ∧ d' = d := by
    intro k i' d' hd'
    cases hd' with
    | stay hacc hun =>
      rw [show (Scene.mk hs s').state.history = s'.history from rfl, hhandled] at hun
      rw [show (Scene.mk hs s').state.history = s'.history from rfl, hhistory] at hacc
      rcases List.mem_append.1 hacc with hacc | hacc
      · refine .inl ⟨.stay hacc hun, ?_⟩
        rintro rfl
        exact hfresh _ _ hacc
      · obtain ⟨rfl, rfl, rfl⟩ := by simpa using hacc
        exact .inr ⟨rfl, rfl, rfl⟩
  have hsince : ∀ k t, StaySince s' k t → StaySince s k t ∧ k ≠ s.nextStay ∨ k = s.nextStay ∧ t = s.now := by
    intro k t ht
    cases ht with
    | outbound hb =>
      rcases houtbound _ _ hb with hb | rfl
      · refine .inl ⟨.outbound hb, fun heq => ?_⟩
        have hacc := (hstays.outbound _ _ hb).1
        rw [heq] at hacc
        exact hfresh _ _ hacc
      · exact .inr ⟨rfl, rfl⟩
    | @copy j c hc =>
      rw [State.copies, hlinks, htasks] at hc
      refine .inl ⟨.copy hc, fun heq => ?_⟩
      have hacc := (hstays.copy j c hc).1
      rw [heq] at hacc
      exact hfresh _ _ hacc
  refine h.transfer ⟨hs, s'⟩ hnow (fun b q d' hd' => ?_) h.tailNodup (fun j => ?_) (fun i' => ?_) (fun u hu => hgen ▸ hu)
    (fun e _ => hgen ▸ h.generated _ _ hw) (fun e he => ?_) (fun e he hheld => ?_) (fun k i' d' t hd' ht => ?_)
    (fun j e he => ?_) fun j sent d' hx => List.mem_cons_of_mem _ hx
  · cases hd' with
    | held hx => exact .inl ⟨.held (List.mem_cons_of_mem _ hx), hne _ hx⟩
    | inTransit he =>
      have hold := Scene.At.inTransit (σ := ⟨(.node i, d) :: hs, s⟩) (hlinks ▸ he)
      exact .inl ⟨hold, hqueued _ _ hold⟩
    | inbound he =>
      have hold := Scene.At.inbound (σ := ⟨(.node i, d) :: hs, s⟩) (hinbound _ ▸ he)
      exact .inl ⟨hold, hqueued _ _ hold⟩
    | stay hacc hun =>
      rcases hstay _ _ _ (.stay hacc hun) with ⟨hold, -⟩ | ⟨rfl, rfl, rfl⟩
      · exact .inl ⟨hold, hqueued _ _ hold⟩
      · exact .inr ⟨rfl, s.now, rfl⟩
  · show ((s'.links j).inTransit.queue.map _).Nodup
    rw [hlinks]
    exact h.inTransitNodup j
  · show ((s'.nodes i').inbound.queue.map _).Nodup
    rw [hinbound]
    exact h.inboundNodup i'
  · obtain rfl := Option.some.inj he
    exact (h.valid _ _ hw : (Place.node i).Valid net s.now)
  · obtain rfl := Option.some.inj he
    simp at hheld
  · rcases hstay _ _ _ hd' with ⟨hold, hk⟩ | ⟨rfl, rfl, rfl⟩
    · rcases hsince k t ht with ⟨ht, -⟩ | ⟨heq, -⟩
      · exact ⟨fun _ => ht, fun hid => absurd hid (hqueued _ _ hold)⟩
      · exact absurd heq hk
    · refine ⟨fun hid => absurd rfl hid, fun _ e he => ?_⟩
      obtain rfl := Option.some.inj he
      rcases hsince _ t ht with ⟨-, hk⟩ | ⟨-, rfl⟩
      · exact absurd rfl hk
      · rfl
  · rw [show (Scene.mk hs s').state.links = s'.links from rfl, hlinks] at he
    exact .inl he

theorem picked {p : OutgoingPacket} {s₁ : State} {j : LinkIx} {m : State.Move} (h : PlacesInv net w ⟨[], s⟩) (hstays : StaysInv net s)
    (hp : Picks j s p s₁ m) (hun : s.handled p.stay = false) : Scene.At ⟨[], s⟩ false (.stay p.stay p.srcNode) p.data ∧
      w p.data.id = some ⟨false, .stay p.stay p.srcNode, p.data.packetSize, p.inNodeSince⟩ := by
  have hmem : p ∈ s.copies j := hp.copies ▸ List.mem_cons_self ..
  have hat : Scene.At ⟨[], s⟩ false (.stay p.stay p.srcNode) p.data :=
    .stay (hstays.copy j p hmem).1 fun hk => by simp [(hstays.handled p.stay).2 hk] at hun
  obtain ⟨t, ht⟩ := h.places _ _ _ hat
  have hsince := h.since _ _ _ p.inNodeSince hat (.copy hmem) _ ht
  exact ⟨hat, hsince ▸ ht⟩

theorem handleStay (h : PlacesInv net w ⟨[], s⟩) {o : Observation} {k : Nat} {i : NodeIx}
    (hstay : Scene.At ⟨[], s⟩ false (.stay k i) d)
    (ho : o.handles = some k) (hhistory : s'.history = s.history ++ [o]) (hnow : s'.now = s.now)
    (hgen : s'.generated = s.generated) (hinbound : ∀ i', (s'.nodes i').inbound = (s.nodes i').inbound)
    (houtbound : ∀ i', (s'.nodes i').outbound = (s.nodes i').outbound)
    (hcopies : ∀ j', ∀ c ∈ s'.copies j', StaySince s c.stay c.inNodeSince) (e' : Option Entry) {j : LinkIx}
    (x : PrioritizedInTransitData) (slot : Nat) (hqueue : ∀ j', (s'.links j').inTransit.queue =
      if j' = j ∧ e'.isSome then MaxHeap.push slot x (s.links j).inTransit.queue else (s.links j').inTransit.queue)
    (he' : ∀ e, e' = some e → j < net.links.length ∧ x.data.id = d.id ∧ x.sent = s.now ∧ (net.link j).delay ≤ x.delay ∧
      ∃ since, e = ⟨false, .transit j s.now, x.data.packetSize, since⟩) :
    PlacesInv net (Function.update w d.id e') ⟨[], s'⟩ := by
  obtain ⟨since, hw⟩ := h.places _ _ _ hstay
  have hsince : ∀ k t, StaySince s' k t → StaySince s k t := fun k t ht => by
    cases ht with
    | outbound hb => exact .outbound (houtbound _ ▸ hb)
    | copy hc => exact hcopies _ _ hc
  -- no other place has the packet
  have hother : ∀ q d', Scene.At ⟨[], s⟩ false q d' → q ≠ .stay k i → d'.id ≠ d.id := fun q d' hd' hq heq => by
    obtain ⟨t, ht⟩ := h.places _ _ _ hd'
    rw [heq, hw] at ht
    simp only [Option.some.injEq, Entry.mk.injEq] at ht
    exact hq ht.2.1.symm
  have hstays : ∀ k' i' d', Scene.At ⟨[], s'⟩ false (.stay k' i') d' →
      Scene.At ⟨[], s⟩ false (.stay k' i') d' ∧ k' ≠ k := by
    intro k' i' d' hd'
    cases hd' with
    | stay hacc hun =>
      rw [show (Scene.mk [] s').state.history = s'.history from rfl, hhistory, handledStays_snoc, ho, List.mem_append,
        not_or] at hun
      refine ⟨.stay ?_ hun.1, fun heq => hun.2 (by simp [heq])⟩
      rw [show (Scene.mk [] s').state.history = s'.history from rfl, hhistory] at hacc
      rcases List.mem_append.1 hacc with hacc | hacc
      · exact hacc
      · rw [← List.mem_singleton.1 hacc] at ho
        simp [Observation.handles] at ho
  have hentered : ∀ j', ∀ e ∈ (s'.links j').inTransit.queue,
      e ∈ (s.links j').inTransit.queue ∨ e = x ∧ j' = j ∧ ∃ e₁, e' = some e₁ := by
    intro j' e he
    rw [hqueue j'] at he
    split_ifs at he with hj
    · rcases MaxHeap.mem_push.1 he with rfl | he
      · exact .inr ⟨rfl, hj.1, Option.isSome_iff_exists.1 hj.2⟩
      · exact .inl (hj.1 ▸ he)
    · exact .inl he
  refine h.transfer ⟨[], s'⟩ hnow (fun b q d' hd' => ?_) List.nodup_nil (fun j' => ?_) (fun i' => ?_) (fun u hu => hgen ▸ hu)
    (fun e _ => hgen ▸ h.generated _ _ hw) (fun e he => ?_) (fun e he hheld => ?_) (fun k' i' d' t hd' ht => ?_)
    (fun j' e he => ?_) fun j' sent d' hx => by simp at hx
  · cases hd' with
    | held hx => simp at hx
    | stay hacc hun =>
      obtain ⟨hold, hk⟩ := hstays _ _ _ (.stay hacc hun)
      exact .inl ⟨hold, hother _ _ hold (by simp [hk])⟩
    | inbound he =>
      have hold := Scene.At.inbound (σ := ⟨[], s⟩) (hinbound _ ▸ he)
      exact .inl ⟨hold, hother _ _ hold (by simp)⟩
    | @inTransit j' e he =>
      rcases hentered j' e he with hold | ⟨rfl, rfl, e₁, rfl⟩
      · have hold := Scene.At.inTransit (σ := ⟨[], s⟩) hold
        exact .inl ⟨hold, hother _ _ hold (by simp)⟩
      · obtain ⟨-, hid, hsent, -, t, rfl⟩ := he' e₁ rfl
        exact .inr ⟨hid, t, by rw [hsent]⟩
  · show ((s'.links j').inTransit.queue.map _).Nodup
    rw [hqueue j']
    split_ifs with hj
    · obtain ⟨rfl, hsome⟩ := hj
      obtain ⟨e₁, rfl⟩ := Option.isSome_iff_exists.1 hsome
      obtain ⟨-, hid, -⟩ := he' e₁ rfl
      refine nodup_push (h.inTransitNodup j') fun e he => ?_
      rw [hid]
      exact hother _ _ (.inTransit he) (by simp)
    · exact h.inTransitNodup j'
  · show ((s'.nodes i').inbound.queue.map _).Nodup
    rw [hinbound]
    exact h.inboundNodup i'
  · obtain ⟨hj, -, -, -, t, rfl⟩ := he' e he
    exact ⟨hj, h.start, Nat.le_refl _⟩
  · obtain ⟨-, -, -, -, t, rfl⟩ := he' e he
    simp at hheld
  · obtain ⟨hold, hk⟩ := hstays _ _ _ hd'
    exact ⟨fun _ => hsince k' t ht, fun hid => absurd hid (hother _ _ hold (by simp [hk]))⟩
  · rcases hentered j' e he with hold | ⟨rfl, rfl, e₁, rfl⟩
    · exact .inl hold
    · exact .inr (he' e₁ rfl).2.2.2.1

end PlacesInv

end QuicWorkbench
