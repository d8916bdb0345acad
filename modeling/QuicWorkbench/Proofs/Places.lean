import QuicWorkbench.Proofs.Mirror
import QuicWorkbench.Proofs.Readiness

/-!
# Every packet is at one place

Packets sit in the hands of the running task, in inbound queues, on links, and in outbound buffers for a stay.
`Whereabouts` says for each id where its packet is, of what size it is and since when; `PlacesInv` that it says
so of every packet that is somewhere. As a map it has one place for an id, so a packet that leaves its place is
not left at another one. The ids of new packets have to be new (`generated`).
-/

namespace QuicWorkbench

/-- A packet that the running task holds, or that waits for a task. -/
structure Entry where
  held : Bool
  place : Place
  sizeBytes : Nat
  /-- When the packet came to the node. -/
  since : Nat
  deriving DecidableEq

abbrev Whereabouts := Uuid → Option Entry

/-- What the replayed state knows about the packet; before it enters the network, nothing. -/
def Entry.token (net : InMemoryNetwork) (e : Entry) : Option Token :=
  match e.place with
  | .created _ | .duplicated _ => none
  | .node i | .stay _ i | .inbound i =>
    some (.buffered (net.node i).id ⟨e.since - net.simulationStart, e.sizeBytes, 0⟩)
  | .transit j sent => some (.inFlight ⟨e.sizeBytes, sent - net.simulationStart, 0, (net.link j).id⟩)

def Whereabouts.tokens (net : InMemoryNetwork) (w : Whereabouts) (id : Uuid) : Option Token :=
  (w id).bind (Entry.token net)

theorem Whereabouts.tokens_update (net : InMemoryNetwork) (w : Whereabouts) (id : Uuid) (e : Option Entry) :
    Whereabouts.tokens net (Function.update w id e) = Function.update (w.tokens net) id (e.bind (Entry.token net)) := by
  funext u
  by_cases hu : u = id
  · subst hu
    simp [tokens]
  · simp [tokens, hu]

/-- The packet is at the place. -/
inductive Scene.At (σ : Scene) : Bool → Place → InTransitData → Prop
  | held {p : Place} {d : InTransitData} (h : (p, d) ∈ σ.held) : At σ true p d
  | inTransit {j : LinkIx} {e : PrioritizedInTransitData} (h : e ∈ (σ.state.links j).inTransit.queue) :
      At σ false (.transit j e.sent) e.data
  | inbound {i : NodeIx} {e : PrioritizedInTransitData} (h : e ∈ (σ.state.nodes i).inbound.queue) :
      At σ false (.inbound i) e.data
  | stay {k : Nat} {i : NodeIx} {d : InTransitData} (h : .accepted k i d ∈ σ.state.history)
      (hun : k ∉ handledStays σ.state.history) : At σ false (.stay k i) d

/-- The packet of the stay came to its node at the time. -/
inductive StaySince (s : State) : Nat → Nat → Prop
  | outbound {i : NodeIx} {b : BufferedPacket} (h : b ∈ (s.nodes i).outbound) : StaySince s b.stay b.inNodeSince
  | copy {j : LinkIx} {c : OutgoingPacket} (h : c ∈ s.copies j) : StaySince s c.stay c.inNodeSince

/-- The node or link exists, and the times are right. -/
def Place.Valid (net : InMemoryNetwork) (now : Nat) : Place → Prop
  | .created i => i < net.nodes.length ∧ (net.node i).udpEndpoint.isSome
  | .duplicated i | .node i | .stay _ i | .inbound i => i < net.nodes.length
  | .transit j sent => j < net.links.length ∧ net.simulationStart ≤ sent ∧ sent ≤ now

theorem Place.Valid.mono {net : InMemoryNetwork} {now now' : Nat} {p : Place} (h : p.Valid net now) (hnow : now ≤ now') :
    p.Valid net now' := by
  cases p with
  | transit j sent => exact ⟨h.1, h.2.1, h.2.2.trans hnow⟩
  | _ => exact h

structure PlacesInv (net : InMemoryNetwork) (w : Whereabouts) (σ : Scene) : Prop where
  start : net.simulationStart ≤ σ.state.now
  places : ∀ held p d, σ.At held p d → ∃ since, w d.id = some ⟨held, p, d.packetSize, since⟩
  heldNodup : (σ.held.map fun x => x.2.id).Nodup
  inTransitNodup : ∀ j, ((σ.state.links j).inTransit.queue.map fun e => e.data.id).Nodup
  inboundNodup : ∀ i, ((σ.state.nodes i).inbound.queue.map fun e => e.data.id).Nodup
  generated : ∀ id e, w id = some e → id ∈ σ.state.generated
  valid : ∀ id e, w id = some e → e.place.Valid net σ.state.now
  current : ∀ i d, (.node i, d) ∈ σ.held → ∀ e, w d.id = some e → e.since = σ.state.now
  since : ∀ k i d t, σ.At false (.stay k i) d → StaySince σ.state k t → ∀ e, w d.id = some e → e.since = t
  delays : ∀ j, ∀ e ∈ (σ.state.links j).inTransit.queue, (net.link j).delay ≤ e.delay
  arrived : ∀ j sent d, (.transit j sent, d) ∈ σ.held → sent + (net.link j).delay ≤ σ.state.now

/-- No packet is anywhere that it was not before. -/
structure NothingNew (s s' : State) : Prop where
  accepted : ∀ k i d, .accepted k i d ∈ s'.history → .accepted k i d ∈ s.history
  handled : ∀ k ∈ handledStays s.history, k ∈ handledStays s'.history
  inTransit : ∀ j, (s'.links j).inTransit.queue = (s.links j).inTransit.queue
  inbound : ∀ i, (s'.nodes i).inbound.queue = (s.nodes i).inbound.queue
  since : ∀ k t, StaySince s' k t → StaySince s k t

namespace NothingNew
variable {s s' : State} {held held' : List (Place × InTransitData)} {p : Place} {d : InTransitData}

theorem refl (s : State) : NothingNew s s :=
  ⟨fun _ _ _ h => h, fun _ h => h, fun _ => rfl, fun _ => rfl, fun _ _ h => h⟩

theorem of_history (hhistory : s'.history = s.history ∨ ∃ o, s'.history = s.history ++ [o] ∧ o.accepts = none)
    (hinTransit : ∀ j, (s'.links j).inTransit.queue = (s.links j).inTransit.queue)
    (hinbound : ∀ i, (s'.nodes i).inbound.queue = (s.nodes i).inbound.queue)
    (houtbound : ∀ i, ∀ b ∈ (s'.nodes i).outbound, b ∈ (s.nodes i).outbound)
    (hcopies : ∀ j, ∀ c ∈ s'.copies j, StaySince s c.stay c.inNodeSince) : NothingNew s s' where
  accepted k i d hacc := by
    rcases hhistory with heq | ⟨o, heq, ho⟩
    · exact heq ▸ hacc
    · rw [heq] at hacc
      rcases List.mem_append.1 hacc with hacc | hacc
      · exact hacc
      · rw [← List.mem_singleton.1 hacc] at ho
        simp [Observation.accepts] at ho
  handled k hk := by
    rcases hhistory with heq | ⟨o, heq, ho⟩
    · exact heq ▸ hk
    · rw [heq, handledStays_snoc]
      exact List.mem_append_left _ hk
  inTransit := hinTransit
  inbound := hinbound
  since k t hk := by
    cases hk with
    | outbound hb => exact .outbound (houtbound _ _ hb)
    | copy hc => exact hcopies _ _ hc

theorem of_copies (hcopies : ∀ j, ∀ c ∈ s'.copies j, ∃ c' ∈ s.copies j, c.SameCopy c') :
    ∀ j, ∀ c ∈ s'.copies j, StaySince s c.stay c.inNodeSince := by
  intro j c hc
  obtain ⟨c', hc', hstay, -, -, hsince⟩ := hcopies j c hc
  rw [hstay, hsince]
  exact .copy hc'

theorem of_event (h : State.EventFrame s s') : NothingNew s s' := by
  refine of_history (.inl h.history) (fun j => by rw [h.inTransit]) (fun i => by rw [h.inbound])
    (fun i b hb => h.outbound i ▸ hb) (of_copies fun j c hc => ?_)
  rw [State.copies, h.linkTasks, h.outgoingQueue] at hc
  exact ⟨c, hc, .refl c⟩

theorem at_false (h : NothingNew s s') (hd : Scene.At ⟨held', s'⟩ false p d) : Scene.At ⟨held, s⟩ false p d := by
  cases hd with
  | inTransit he => exact .inTransit ((h.inTransit _) ▸ he)
  | inbound he => exact .inbound ((h.inbound _) ▸ he)
  | stay hacc hun => exact .stay (h.accepted _ _ _ hacc) fun hk => hun (h.handled _ hk)

end NothingNew

namespace PlacesInv
variable {net : InMemoryNetwork} {w : Whereabouts} {σ : Scene} {s s' : State} {held held' : List (Place × InTransitData)}
  {id : Uuid}

theorem initial (net : InMemoryNetwork) (now : Nat) (events : List NetworkEvent) (hnow : net.simulationStart ≤ now) :
    PlacesInv net (fun _ => none) ⟨[], net.initialState now events⟩ := by
  refine ⟨hnow, ?_, List.nodup_nil, fun j => List.nodup_nil, fun i => List.nodup_nil, by simp, by simp, by simp, by simp,
    fun j e he => ?_, by simp⟩
  · rintro held p d (h | h | h | ⟨h, -⟩)
    · simp at h
    · simp [InMemoryNetwork.initialState, NetworkLink.new, InboundQueue.new] at h
    · simp [InMemoryNetwork.initialState, NodeState.new, InboundQueue.new] at h
    · simp [InMemoryNetwork.initialState] at h
  · simp [InMemoryNetwork.initialState, NetworkLink.new, InboundQueue.new] at he


/-- What a task holds is held by nobody else. -/
theorem held_unique (h : PlacesInv net w σ) {x : Place × InTransitData} (hx : x ∈ σ.held) {p : Place} {d : InTransitData}
    (hd : σ.At false p d) : d.id ≠ x.2.id := by
  intro heq
  obtain ⟨t, ht⟩ := h.places _ _ _ (.held hx)
  obtain ⟨t', ht'⟩ := h.places _ _ _ hd
  rw [heq, ht] at ht'
  simp at ht'

theorem transfer (h : PlacesInv net w σ) (σ' : Scene) (hnow : σ'.state.now = σ.state.now) {e' : Option Entry}
    (hplaces : ∀ b p d, σ'.At b p d → σ.At b p d ∧ d.id ≠ id ∨
      d.id = id ∧ ∃ since, e' = some ⟨b, p, d.packetSize, since⟩)
    (hheldNodup : (σ'.held.map fun x => x.2.id).Nodup)
    (hinTransitNodup : ∀ j, ((σ'.state.links j).inTransit.queue.map fun e => e.data.id).Nodup)
    (hinboundNodup : ∀ i, ((σ'.state.nodes i).inbound.queue.map fun e => e.data.id).Nodup)
    (hgen : ∀ x ∈ σ.state.generated, x ∈ σ'.state.generated) (hgen' : ∀ e, e' = some e → id ∈ σ'.state.generated)
    (hvalid : ∀ e, e' = some e → e.place.Valid net σ.state.now)
    (hcurrent : ∀ e, e' = some e → e.held → e.since = σ.state.now)
    (hsince : ∀ k i d t, σ'.At false (.stay k i) d → StaySince σ'.state k t →
      (d.id ≠ id → StaySince σ.state k t) ∧ (d.id = id → ∀ e, e' = some e → e.since = t))
    (hdelays : ∀ j, ∀ e ∈ (σ'.state.links j).inTransit.queue,
      e ∈ (σ.state.links j).inTransit.queue ∨ (net.link j).delay ≤ e.delay)
    (harrived : ∀ j sent d, (.transit j sent, d) ∈ σ'.held → (.transit j sent, d) ∈ σ.held) :
    PlacesInv net (Function.update w id e') σ' where
  start := by rw [hnow]; exact h.start
  places b p d hd := by
    rcases hplaces b p d hd with ⟨hold, hne⟩ | ⟨rfl, hentry⟩
    · rw [Function.update_of_ne hne]
      exact h.places b p d hold
    · rw [Function.update_self]
      exact hentry
  heldNodup := hheldNodup
  inTransitNodup := hinTransitNodup
  inboundNodup := hinboundNodup
  generated u e hu := by
    by_cases hid : u = id
    · subst hid
      rw [Function.update_self] at hu
      exact hgen' e hu
    · rw [Function.update_of_ne hid] at hu
      exact hgen u (h.generated u e hu)
  valid u e hu := by
    rw [hnow]
    by_cases hid : u = id
    · subst hid
      rw [Function.update_self] at hu
      exact hvalid e hu
    · rw [Function.update_of_ne hid] at hu
      exact h.valid u e hu
  current i d hx e he := by
    rw [hnow]
    rcases hplaces _ _ _ (.held hx) with ⟨hold, hne⟩ | ⟨rfl, since, hentry⟩
    · rw [Function.update_of_ne hne] at he
      cases hold with
      | held hx => exact h.current i d hx e he
    · rw [Function.update_self] at he
      refine hcurrent e he ?_
      obtain rfl := Option.some.inj (hentry.symm.trans he)
      rfl
  since k i d t hd ht e he := by
    obtain ⟨hother, hself⟩ := hsince k i d t hd ht
    rcases hplaces _ _ _ hd with ⟨hold, hne⟩ | ⟨rfl, -⟩
    · rw [Function.update_of_ne hne] at he
      exact h.since k i d t hold (hother hne) e he
    · rw [Function.update_self] at he
      exact hself rfl e he
  delays j e he := by
    rcases hdelays j e he with hold | hnew
    · exact h.delays j e hold
    · exact hnew
  arrived j sent d hx := by rw [hnow]; exact h.arrived j sent d (harrived j sent d hx)

theorem reheld (h : PlacesInv net w ⟨held, s⟩) (hq : NothingNew s s') (hnow : s'.now = s.now) {e' : Option Entry}
    (hqueued : ∀ p d, Scene.At ⟨held, s⟩ false p d → d.id ≠ id)
    (hheld : ∀ x ∈ held', x ∈ held ∧ x.2.id ≠ id ∨
      x.2.id = id ∧ (∀ j sent, x.1 ≠ .transit j sent) ∧ ∃ since, e' = some ⟨true, x.1, x.2.packetSize, since⟩)
    (hnodup : (held'.map fun x => x.2.id).Nodup) (hgen : ∀ x ∈ s.generated, x ∈ s'.generated)
    (hgen' : ∀ e, e' = some e → id ∈ s'.generated) (hvalid : ∀ e, e' = some e → e.place.Valid net s.now)
    (hcurrent : ∀ e, e' = some e → e.held → e.since = s.now) :
    PlacesInv net (Function.update w id e') ⟨held', s'⟩ := by
  refine h.transfer ⟨held', s'⟩ hnow (fun b p d hd => ?_) hnodup (fun j => ?_) (fun i => ?_) hgen hgen' hvalid hcurrent
    (fun k i d t hd ht => ?_) (fun j e he => ?_) fun j sent d hx => ?_
  · cases b with
    | true =>
      cases hd with
      | held hx =>
        rcases hheld _ hx with ⟨hold, hne⟩ | ⟨hid, -, hsince⟩
        · exact .inl ⟨.held hold, hne⟩
        · exact .inr ⟨hid, hsince⟩
    | false =>
      have hold : Scene.At ⟨held, s⟩ false p d := hq.at_false hd
      exact .inl ⟨hold, hqueued p d hold⟩
  · show ((s'.links j).inTransit.queue.map _).Nodup
    rw [hq.inTransit]
    exact h.inTransitNodup j
  · show ((s'.nodes i).inbound.queue.map _).Nodup
    rw [hq.inbound]
    exact h.inboundNodup i
  · exact ⟨fun _ => hq.since k t ht, fun hid => absurd hid (hqueued _ d (hq.at_false hd))⟩
  · exact .inl ((hq.inTransit j) ▸ he)
  · rcases hheld _ hx with ⟨hold, -⟩ | ⟨-, hne, -⟩
    · exact hold
    · exact absurd rfl (hne j sent)

theorem quiet (h : PlacesInv net w ⟨held, s⟩) (hq : NothingNew s s') (hnow : s'.now = s.now)
    (hgen : s'.generated = s.generated) (hsub : held'.Sublist held) : PlacesInv net w ⟨held', s'⟩ where
  start := by rw [hnow]; exact h.start
  places b p d hd := by
    cases b with
    | true =>
      cases hd with
      | held hx => exact h.places _ _ _ (.held (hsub.subset hx))
    | false => exact h.places _ _ _ (hq.at_false hd)
  heldNodup := h.heldNodup.sublist (hsub.map _)
  inTransitNodup j := by rw [hq.inTransit]; exact h.inTransitNodup j
  inboundNodup i := by rw [hq.inbound]; exact h.inboundNodup i
  generated u e hu := by rw [hgen]; exact h.generated u e hu
  valid u e hu := by rw [hnow]; exact h.valid u e hu
  current i d hx e he := by rw [hnow]; exact h.current i d (hsub.subset hx) e he
  since k i d t hd ht e he := h.since k i d t (hq.at_false hd) (hq.since k t ht) e he
  delays j e he := h.delays j e ((hq.inTransit j) ▸ he)
  arrived j sent d hx := by rw [hnow]; exact h.arrived j sent d (hsub.subset hx)

theorem advance (h : PlacesInv net w ⟨[], s⟩) (duration : Nat) :
    PlacesInv net w ⟨[], { s with now := s.now + duration }⟩ := by
  have hq : NothingNew s { s with now := s.now + duration } :=
    .of_history (.inl rfl) (fun _ => rfl) (fun _ => rfl) (fun _ _ h => h) fun _ _ h => .copy h
  refine ⟨h.start.trans (Nat.le_add_right ..), fun b p d hd => ?_, List.nodup_nil, h.inTransitNodup, h.inboundNodup,
    h.generated, fun u e hu => (h.valid u e hu).mono (Nat.le_add_right ..), by simp, fun k i d t hd ht e he => ?_,
    h.delays, by simp⟩
  · cases b with
    | true =>
      cases hd with
      | held hx => simp at hx
    | false => exact h.places _ _ _ (hq.at_false hd)
  · exact h.since k i d t (hq.at_false hd) (hq.since k t ht) e he

theorem takeUp (h : PlacesInv net w ⟨held, s⟩) {batch : List (Place × InTransitData)}
    (hbatch : ∀ x ∈ batch, Scene.At ⟨held, s⟩ false x.1 x.2 ∧ ∀ i, x.1 ≠ .node i)
    (hnodup : (batch.map fun x => x.2.id).Nodup)
    (hplaces : ∀ p d, Scene.At ⟨batch ++ held, s'⟩ false p d →
      Scene.At ⟨held, s⟩ false p d ∧ d.id ∉ batch.map fun x => x.2.id)
    (hinTransit : ∀ j, (s'.links j).inTransit.queue.Subperm (s.links j).inTransit.queue)
    (hinbound : ∀ i, (s'.nodes i).inbound.queue.Subperm (s.nodes i).inbound.queue)
    (hnow : s'.now = s.now) (hgen : s'.generated = s.generated) (hsince : ∀ k t, StaySince s' k t → StaySince s k t)
    (harrived : ∀ j sent d, (.transit j sent, d) ∈ batch → sent + (net.link j).delay ≤ s.now) :
    PlacesInv net (fun u => (w u).map fun e => if u ∈ batch.map fun x => x.2.id then { e with held := true } else e)
      ⟨batch ++ held, s'⟩ where
  start := by rw [hnow]; exact h.start
  places b p d hd := by
    cases b with
    | false =>
      obtain ⟨hold, hnot⟩ := hplaces p d hd
      obtain ⟨t, ht⟩ := h.places _ _ _ hold
      exact ⟨t, by simp [ht, hnot]⟩
    | true =>
      cases hd with
      | held hx =>
        rcases List.mem_append.1 hx with hx | hx
        · obtain ⟨t, ht⟩ := h.places _ _ _ (hbatch _ hx).1
          have hmem : d.id ∈ batch.map fun x => x.2.id := List.mem_map_of_mem (f := fun x => x.2.id) hx
          exact ⟨t, by rw [ht, Option.map_some, if_pos hmem]⟩
        · obtain ⟨t, ht⟩ := h.places _ _ _ (.held hx)
          exact ⟨t, by rw [ht, Option.map_some, ite_self]⟩
  heldNodup := by
    rw [List.map_append]
    refine List.nodup_append.2 ⟨hnodup, h.heldNodup, fun u hu u' hu' heq => ?_⟩
    obtain ⟨x, hx, rfl⟩ := List.mem_map.1 hu
    obtain ⟨y, hy, rfl⟩ := List.mem_map.1 hu'
    exact h.held_unique hy (hbatch x hx).1 heq
  inTransitNodup j := by
    obtain ⟨q, hq, hsub⟩ := hinTransit j
    exact ((hq.map _).nodup_iff).1 ((h.inTransitNodup j).sublist (hsub.map _))
  inboundNodup i := by
    obtain ⟨q, hq, hsub⟩ := hinbound i
    exact ((hq.map _).nodup_iff).1 ((h.inboundNodup i).sublist (hsub.map _))
  generated u e hu := by
    obtain ⟨e', he', -⟩ := Option.map_eq_some_iff.1 hu
    rw [hgen]
    exact h.generated u e' he'
  valid u e hu := by
    obtain ⟨e', he', rfl⟩ := Option.map_eq_some_iff.1 hu
    rw [hnow]
    have hvalid := h.valid u e' he'
    split_ifs <;> exact hvalid
  current i d hx e he := by
    obtain ⟨e', he', rfl⟩ := Option.map_eq_some_iff.1 he
    rcases List.mem_append.1 hx with hx | hx
    · exact absurd rfl ((hbatch _ hx).2 i)
    · rw [hnow]
      have hcurrent := h.current i d hx e' he'
      split_ifs <;> exact hcurrent
  since k i d t hd ht e he := by
    obtain ⟨e', he', rfl⟩ := Option.map_eq_some_iff.1 he
    have hsince := h.since k i d t (hplaces _ _ hd).1 (hsince k t ht) e' he'
    split_ifs <;> exact hsince
  delays j e he := h.delays j e ((hinTransit j).subset he)
  arrived j sent d hx := by
    rw [hnow]
    rcases List.mem_append.1 hx with hx | hx
    · exact harrived j sent d hx
    · exact h.arrived j sent d hx

end PlacesInv

end QuicWorkbench
