import QuicWorkbench.Proofs.Replayable
import QuicWorkbench.Proofs.Sends

/-!
# Cleared buffers

A clear-buffer event only stores its time. Each copy of a packet knows since when the packet is in its node, and
that does not change while the clock and the time of the last clear only grow: a packet that was in the buffer
before an event cleared it is never sent from there, whoever comes to handle it and whenever that is.
-/

namespace QuicWorkbench

/-! ### Since when packets are in their node -/

/-- What a step does to the stays: none is older than it was, and a new one starts now. -/
structure StaysAge (s s' : State) : Prop where
  now : s.now ≤ s'.now
  nextStay : s.nextStay ≤ s'.nextStay
  since : ∀ k t, StaySince s' k t → StaySince s k t ∨ s.nextStay ≤ k ∧ t = s.now

namespace StaysAge
variable {net : InMemoryNetwork} {s s' : State}

theorem of_nothingNew (h : NothingNew s s') (hnow : s.now ≤ s'.now) (hnext : s'.nextStay = s.nextStay) : StaysAge s s' :=
  ⟨hnow, hnext.ge, fun k t ht => .inl (h.since k t ht)⟩

theorem effect {σ σ' : Scene} (he : Effect net σ σ') : StaysAge σ.state σ'.state := by
  rcases he.quiet_or_stay with hq | hs
  · refine ⟨hq.now, hq.nextStay.ge, fun k t ht => .inl ?_⟩
    cases ht with
    | outbound hb => exact .outbound (hq.outbound _ ▸ hb)
    | @copy j c hc =>
      rw [State.copies, hq.linkTasks, hq.outgoingQueue] at hc
      exact .copy hc
  · generalize σ.state = s at hs
    generalize σ'.state = s' at hs
    cases hs with
    | accept i d buffer hbuffer htask =>
      refine ⟨Nat.le_refl _, Nat.le_succ _, fun k t ht => ?_⟩
      cases ht with
      | @outbound i' b hb =>
        rw [State.outbound_pushOutbound_accept] at hb
        rcases List.mem_append.1 hb with hb | hb
        · exact .inl (.outbound hb)
        · split_ifs at hb
          · obtain rfl := List.mem_singleton.1 hb
            exact .inr ⟨Nat.le_refl _, rfl⟩
          · exact absurd hb List.not_mem_nil
      | copy hc => exact .inl (.copy hc)
    | acceptInVain i d buffer hbuffer htask =>
      refine ⟨Nat.le_refl _, Nat.le_succ _, fun k t ht => .inl ?_⟩
      cases ht with
      | @outbound i' b hb =>
        rw [State.outbound_accept] at hb
        exact .outbound hb
      | copy hc => exact .copy hc
    | offer i packet outbound links rolls htask hnext hlinks hall =>
      have hnew : NothingNew s (State.pushCopies net i packet links links rolls (s.takeOutbound i packet outbound links)) :=
        .offer hnext
      rw [State.pushCopies_eq] at hnew ⊢
      exact .of_nothingNew hnew (Nat.le_refl _) rfl
    | panicOffer i packet outbound links done rest j rolls htask hnext hlinks hsplit hpanicked =>
      have hnew : NothingNew s (State.pushCopies net i packet links done rolls (s.takeOutbound i packet outbound links)) :=
        .offer hnext
      rw [State.pushCopies_eq] at hnew ⊢
      exact .of_nothingNew (hnew.trans (.endNodeTask _ i .panicked)) (Nat.le_refl _) rfl
    | endNodeTask i task htask hend => exact .of_nothingNew (.endNodeTask s i task) (Nat.le_refl _) rfl

theorem linkEffect {j : LinkIx} (he : LinkEffect net j s s') : StaysAge s s' := by
  refine ⟨he.frame.now.ge, ?_, fun k t ht => .inl ?_⟩
  · cases he with
    | park p s₁ task hp => obtain ⟨queue, rfl⟩ := hp.eq_dequeue; exact Nat.le_refl _
    | discard p p' s₁ hp => obtain ⟨queue, rfl⟩ := hp.eq_dequeue; exact Nat.le_refl _
    | clear p p' s₁ hp => obtain ⟨queue, rfl⟩ := hp.eq_dequeue; exact Nat.le_refl _
    | send p p' s₁ data slot hp => obtain ⟨queue, rfl⟩ := hp.eq_dequeue; exact Nat.le_refl _
    | panicSend p p' s₁ hp => obtain ⟨queue, rfl⟩ := hp.eq_dequeue; exact Nat.le_refl _
  · cases ht with
    | copy hc => exact NothingNew.of_copies he.copies_same _ _ hc
    | @outbound i b hb => exact .outbound (he.outbound i ▸ hb)

theorem event (hf : State.EventFrame s s') : StaysAge s s' := .of_nothingNew (.of_event hf) hf.now.ge hf.nextStay

end StaysAge

/-- The stays before the `b`-th one began at the time at the latest. -/
def BegunBy (b time : Nat) (s : State) : Prop := b ≤ s.nextStay ∧ ∀ k < b, ∀ t, StaySince s k t → t ≤ time

theorem StaysAge.begunBy {b time : Nat} {s s' : State} (h : StaysAge s s') (hb : BegunBy b time s) :
    BegunBy b time s' := by
  refine ⟨hb.1.trans h.nextStay, fun k hk t ht => ?_⟩
  rcases h.since k t ht with ht | ⟨hle, -⟩
  · exact hb.2 k hk t ht
  · have hbk := hb.1
    omega

theorem BegunBy.preserved (net : InMemoryNetwork) (b time : Nat) : Preserved net fun σ => BegunBy b time σ.state where
  effect _ _ he h := (StaysAge.effect he).begunBy h
  link _ _ _ _ he h := (StaysAge.linkEffect he).begunBy h
  linkEvent s event h := (StaysAge.event (s.processLinkEvent_frame net event)).begunBy h
  nodeEvent s event h := (StaysAge.event (s.processNodeEvent_frame net event)).begunBy h
  events _ _ h := ⟨h.1, fun k hk t ht => h.2 k hk t (by cases ht with
    | outbound hb => exact .outbound hb
    | copy hc => exact .copy hc)⟩

/-- All stays have begun. -/
def AllBegun (s : State) : Prop := ∀ k t, StaySince s k t → t ≤ s.now

theorem StaysAge.allBegun {s s' : State} (h : StaysAge s s') (hs : AllBegun s) : AllBegun s' := by
  intro k t ht
  rcases h.since k t ht with ht | ⟨-, rfl⟩
  · exact (hs k t ht).trans h.now
  · exact h.now

theorem AllBegun.preserved (net : InMemoryNetwork) : Preserved net fun σ => AllBegun σ.state where
  effect _ _ he h := (StaysAge.effect he).allBegun h
  link _ _ _ _ he h := (StaysAge.linkEffect he).allBegun h
  linkEvent s event h := (StaysAge.event (s.processLinkEvent_frame net event)).allBegun h
  nodeEvent s event h := (StaysAge.event (s.processNodeEvent_frame net event)).allBegun h
  events _ _ h := fun k t ht => h k t (by cases ht with
    | outbound hb => exact .outbound hb
    | copy hc => exact .copy hc)

theorem AllBegun.initial (net : InMemoryNetwork) (now : Nat) (events : List NetworkEvent) :
    AllBegun (net.initialState now events) := by
  intro k t ht
  cases ht with
  | outbound hb => simp [InMemoryNetwork.initialState, NodeState.new] at hb
  | copy hc => simp [InMemoryNetwork.initialState, State.copies, LinkTask.packet?, NetworkLink.new] at hc

/-! ### What the steps do to the history, and to the times of clears -/

theorem Effect.history {net : InMemoryNetwork} {σ σ' : Scene} (h : Effect net σ σ') :
    (∀ o ∈ σ.state.history, o ∈ σ'.state.history) ∧
      ∀ t j p, .sent t j p ∈ σ'.state.history → .sent t j p ∈ σ.state.history := by
  rcases h.observes with heq | ⟨o, ho, heq⟩
  · rw [heq]
    exact ⟨fun _ ho => ho, fun _ _ _ ho => ho⟩
  · rw [heq]
    refine ⟨fun o' ho' => List.mem_append_left _ ho', fun t j p hsent => ?_⟩
    rcases List.mem_append.1 hsent with hsent | hsent
    · exact hsent
    · rw [← List.mem_singleton.1 hsent] at ho
      simp [Observation.isSent] at ho

theorem LinkEffect.history_mono {net : InMemoryNetwork} {s s' : State} {j : LinkIx} (h : LinkEffect net j s s') :
    ∀ o ∈ s.history, o ∈ s'.history := by
  intro o ho
  rcases h.sends with ⟨p, slot, hsend⟩ | ⟨heq | ⟨o', -, -, -, heq⟩, -⟩
  · rw [hsend.history]
    exact List.mem_append_left _ ho
  · rw [heq]
    exact ho
  · rw [heq]
    exact List.mem_append_left _ ho

/-- What a link task sends is the packet that it has picked, which was not cleared. -/
theorem LinkEffect.sent_cases {net : InMemoryNetwork} {s s' : State} {j : LinkIx} (h : LinkEffect net j s s') {t : Nat}
    {j' : LinkIx} {q : OutgoingPacket} (hsent : .sent t j' q ∈ s'.history) :
    .sent t j' q ∈ s.history ∨ ∃ p p' s₁, Picks j s p s₁ (.ready p') ∧ s.clearedFromBuffer p = false ∧ q.stay = p.stay := by
  cases h with
  | park p s₁ task hp => obtain ⟨queue, rfl⟩ := hp.eq_dequeue; exact .inl hsent
  | discard p p' s₁ hp =>
    obtain ⟨queue, rfl⟩ := hp.eq_dequeue
    rcases List.mem_append.1 hsent with hold | hnew
    · exact .inl hold
    · simp at hnew
  | clear p p' s₁ hp =>
    obtain ⟨queue, rfl⟩ := hp.eq_dequeue
    rcases List.mem_append.1 hsent with hold | hnew
    · exact .inl hold
    · simp at hnew
  | panicSend p p' s₁ hp =>
    obtain ⟨queue, rfl⟩ := hp.eq_dequeue
    rcases List.mem_append.1 hsent with hold | hnew
    · exact .inl hold
    · simp at hnew
  | send p p' s₁ data slot hp hun hcleared =>
    have hpick := hp
    obtain ⟨links, rfl⟩ := hp.ready
    obtain ⟨queue, rfl⟩ := hp.eq_dequeue
    rcases List.mem_append.1 hsent with hold | hnew
    · exact .inl hold
    · refine .inr ⟨p, _, _, hpick, hcleared, ?_⟩
      rw [List.mem_singleton, Observation.sent.injEq] at hnew
      rw [hnew.2.2]

theorem State.processLinkEvent_nodes (net : InMemoryNetwork) (s : State) (event : LinkEventPayload) :
    (s.processLinkEvent net event).nodes = s.nodes := by
  rcases processLinkEvent_cases net s event with heq | ⟨j, s₁, -, hchange, heq⟩
  · rw [heq]
  · rw [heq]
    generalize event.status = status at hchange
    cases hchange <;> rfl

/-- An event keeps the time of the last clear, or clears the buffer now. -/
theorem State.processNodeEvent_lastBufferClear (net : InMemoryNetwork) (s : State) (event : NodeEventPayload) (i : NodeIx) :
    ((s.processNodeEvent net event).nodes i).lastBufferClear = (s.nodes i).lastBufferClear ∧
      (event.clearBuffer → net.nodesById.lookup event.nodeId ≠ some i) ∨
    ((s.processNodeEvent net event).nodes i).lastBufferClear = some s.now ∧ event.clearBuffer ∧
      net.nodesById.lookup event.nodeId = some i := by
  cases hlookup : net.nodesById.lookup event.nodeId with
  | none =>
    left
    simp [processNodeEvent, hlookup]
  | some i₀ =>
    obtain ⟨s₁, hchange, heq⟩ := processNodeEvent_some hlookup
    rw [heq]
    generalize event.status = status at hchange
    have hsame : (s₁.nodes i).lastBufferClear = (s.nodes i).lastBufferClear ∧ s₁.now = s.now := by
      cases hchange with
      | same _ h => exact ⟨rfl, rfl⟩
      | down hup => by_cases hi : i = i₀ <;> simp [setNode, hi]
      | up upTx hdown => by_cases hi : i = i₀ <;> simp [setNode, hi]
    by_cases hclear : event.clearBuffer
    · rw [if_pos hclear]
      by_cases hi : i = i₀
      · subst hi
        right
        simp [hclear, trackNodeEvent, record, clearBuffer, setNode, NodeState.clearBuffer, hsame.2]
      · left
        simp [trackNodeEvent, record, clearBuffer, setNode, hi, hsame.1, Ne.symm hi]
    · left
      simp [hclear, trackNodeEvent, record, hsame.1]

/-! ### Packets that an event has cleared -/

/-- The stay that the observation shows a packet sent from. -/
def Observation.sends : Observation → Option Nat
  | .sent _ _ p => some p.stay
  | _ => none

/-- No packet was sent from the stay. -/
def State.Unsent (s : State) (k : Nat) : Prop := k ∉ s.history.filterMap Observation.sends

instance (s : State) (k : Nat) : Decidable (s.Unsent k) := inferInstanceAs (Decidable (_ ∉ _))

theorem State.unsent_iff {s : State} {k : Nat} : s.Unsent k ↔ ∀ t j p, .sent t j p ∈ s.history → p.stay ≠ k := by
  simp only [Unsent, List.mem_filterMap, not_exists, not_and]
  constructor
  · rintro h t j p hp rfl
    exact h _ hp rfl
  · intro h o ho hk
    cases o <;> simp only [Observation.sends, reduceCtorEq, Option.some.injEq] at hk
    exact h _ _ _ ho hk

/-- The buffer of the node was cleared at the time `c`, or later, and the packet of the stay was there before `c` and has
not been sent. -/
structure Doomed (k : Nat) (i : NodeIx) (d : InTransitData) (c : Nat) (s : State) : Prop where
  accepted : .accepted k i d ∈ s.history
  cleared : ∃ last, (s.nodes i).lastBufferClear = some last ∧ c ≤ last
  past : c ≤ s.now
  before : ∀ t, StaySince s k t → t < c
  unsent : s.Unsent k

namespace Doomed
variable {net : InMemoryNetwork} {s s' s₁ : State} {k : Nat} {i : NodeIx} {d : InTransitData} {c : Nat} {j : LinkIx}
  {p p' : OutgoingPacket}

/-- Whoever comes to handle the packet finds that it was cleared. -/
theorem clearedFromBuffer (h : Doomed k i d c s) (hstays : StaysInv net s) {m : State.Move} (hp : Picks j s p s₁ m)
    (hk : p.stay = k) : p.srcNode = i ∧ p.data = d ∧ s.clearedFromBuffer p := by
  have hmem : p ∈ s.copies j := hp.copies ▸ List.mem_cons_self ..
  have hacc := (hstays.copy j p hmem).1
  rw [hk] at hacc
  obtain ⟨hsrc, hdata⟩ := accepted_unique hstays.acceptedNodup h.accepted hacc
  have hbefore := h.before p.inNodeSince (hk ▸ .copy hmem)
  obtain ⟨last, hlast, hle⟩ := h.cleared
  refine ⟨hsrc, hdata, ?_⟩
  simp only [State.clearedFromBuffer, NodeState.clearedFromBuffer, hsrc, hlast, decide_eq_true_eq]
  omega

theorem frame (h : Doomed k i d c s) (hage : StaysAge s s') (hstays : StaysInv net s)
    (haccepted : ∀ o ∈ s.history, o ∈ s'.history)
    (hsent : ∀ t j p, .sent t j p ∈ s'.history → .sent t j p ∈ s.history ∨ p.stay ≠ k)
    (hclear : ∀ last, (s.nodes i).lastBufferClear = some last →
      ∃ last', (s'.nodes i).lastBufferClear = some last' ∧ (last ≤ last' ∨ s.now ≤ last')) : Doomed k i d c s' where
  accepted := haccepted _ h.accepted
  cleared := by
    obtain ⟨last, hlast, hle⟩ := h.cleared
    obtain ⟨last', hlast', hle'⟩ := hclear last hlast
    have hpast := h.past
    exact ⟨last', hlast', by omega⟩
  past := h.past.trans hage.now
  before t ht := by
    rcases hage.since k t ht with ht | ⟨hle, -⟩
    · exact h.before t ht
    · have hlt := hstays.acceptedLt k (mem_acceptedStays.2 ⟨i, d, h.accepted⟩)
      omega
  unsent := State.unsent_iff.2 fun t j p hsend => by
    rcases hsent t j p hsend with hold | hne
    · exact State.unsent_iff.1 h.unsent t j p hold
    · exact hne

theorem preserved (net : InMemoryNetwork) (k : Nat) (i : NodeIx) (d : InTransitData) (c : Nat) :
    Preserved net fun σ => StaysInv net σ.state ∧ Doomed k i d c σ.state where
  effect σ σ' he h := by
    refine ⟨(StaysInv.preserved net).effect σ σ' he h.1, h.2.frame (.effect he) h.1 ?_ ?_ fun last hlast => ?_⟩
    · exact fun o ho => he.history.1 o ho
    · exact fun t j p ho => .inl (he.history.2 t j p ho)
    · exact ⟨last, he.linkFrame.lastBufferClear i ▸ hlast, .inl (Nat.le_refl _)⟩
  link j s s' hj he h := by
    refine ⟨h.1.linkEffect he, h.2.frame (.linkEffect he) h.1 he.history_mono (fun t j' q ho => ?_) fun last hlast => ?_⟩
    · rcases he.sent_cases ho with hold | ⟨p, p', s₁, hp, hcleared, hq⟩
      · exact .inl hold
      · refine .inr fun hk => ?_
        have := (h.2.clearedFromBuffer h.1 hp (hq ▸ hk)).2.2
        simp [hcleared] at this
    · exact ⟨last, he.frame.lastBufferClear i ▸ hlast, .inl (Nat.le_refl _)⟩
  linkEvent s event h := by
    have hf := s.processLinkEvent_frame net event
    refine ⟨h.1.event hf, h.2.frame (.event hf) h.1 (fun o ho => hf.history ▸ ho) (fun t j p ho => .inl (hf.history ▸ ho))
      fun last hlast => ⟨last, ?_, .inl (Nat.le_refl _)⟩⟩
    rw [State.processLinkEvent_nodes]
    exact hlast
  nodeEvent s event h := by
    have hf := s.processNodeEvent_frame net event
    refine ⟨h.1.event hf, h.2.frame (.event hf) h.1 (fun o ho => hf.history ▸ ho) (fun t j p ho => .inl (hf.history ▸ ho))
      fun last hlast => ?_⟩
    rcases State.processNodeEvent_lastBufferClear net s event i with ⟨hsame, -⟩ | ⟨hnow, -⟩
    · exact ⟨last, hsame ▸ hlast, .inl (Nat.le_refl _)⟩
    · exact ⟨s.now, hnow, .inr (Nat.le_refl _)⟩
  events s events h := ⟨{ h.1 with }, h.2.frame ⟨Nat.le_refl _, Nat.le_refl _, fun k t ht => .inl (by
    cases ht with
    | outbound hb => exact .outbound hb
    | copy hc => exact .copy hc)⟩ h.1 (fun _ ho => ho) (fun _ _ _ ho => .inl ho) fun last hlast =>
      ⟨last, hlast, .inl (Nat.le_refl _)⟩⟩

theorem handle (h : Doomed k i d c s) (hstays : StaysInv net s) (he : LinkEffect net j s s') (hun : s.handled k = false)
    (hhandled : s'.handled k = true) : s'.log = s.log ++
      [⟨s.now - net.simulationStart, .packetDropped ⟨d.id, (net.node i).id, .bufferCleared⟩⟩] := by
  have hpicked : ∀ p : OutgoingPacket, Function.update s.handled p.stay true k = true → p.stay = k := fun p hp => by
    by_contra hne
    rw [Function.update_of_ne (Ne.symm hne), hun] at hp
    simp at hp
  cases he with
  | park p s₁ task hp =>
    obtain ⟨queue, rfl⟩ := hp.eq_dequeue
    exact absurd (hun.symm.trans hhandled) (by simp)
  | discard p p' s₁ hp =>
    obtain ⟨queue, rfl⟩ := hp.eq_dequeue
    exact absurd (hun.symm.trans hhandled) (by simp)
  | clear p p' s₁ hp =>
    have hpick := hp
    obtain ⟨queue, rfl⟩ := hp.eq_dequeue
    obtain ⟨links, rfl⟩ := hp.ready
    obtain ⟨hsrc, hdata, -⟩ := h.clearedFromBuffer hstays hpick (hpicked p hhandled)
    simp [State.trackDroppedByBufferClearEvent, State.trackDropped, State.setHandled, State.record, State.observe,
      State.setLinkTask, State.dequeue, State.setLink, hsrc, hdata]
  | send p p' s₁ data slot hp hun' hcleared =>
    have hpick := hp
    obtain ⟨queue, rfl⟩ := hp.eq_dequeue
    have := (h.clearedFromBuffer hstays hpick (hpicked p hhandled)).2.2
    simp [hcleared] at this
  | panicSend p p' s₁ hp hun' hcleared =>
    have hpick := hp
    obtain ⟨queue, rfl⟩ := hp.eq_dequeue
    have := (h.clearedFromBuffer hstays hpick (hpicked p hhandled)).2.2
    simp [hcleared] at this

end Doomed

/-! ### Results -/

end QuicWorkbench
