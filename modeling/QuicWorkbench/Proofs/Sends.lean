import QuicWorkbench.Proofs.Bandwidth
import QuicWorkbench.Proofs.Log
import QuicWorkbench.Proofs.Simulate
import Mathlib.Algebra.Order.Field.Rat
import Mathlib.Tactic.Linarith

/-!
# What the links send

Only the task of a link sends on it, when its pacer can send: the sends of a link, as the history shows them, are
those that the pacer has let through, and the pacer is in the state that they left it in. So a link never sends more
than its bandwidth allows, whatever led to each send.
-/

namespace QuicWorkbench

/-- When the packet was sent, and the packet, if the observation is of a send on the link. -/
def Observation.sentOn (j : LinkIx) : Observation → Option (Nat × OutgoingPacket)
  | .sent t j' p => if j' = j then some (t, p) else none
  | _ => none

def Observation.isSent : Observation → Bool
  | .sent .. => true
  | _ => false

/-- What was sent on the link, oldest first. -/
def State.sentOn (s : State) (j : LinkIx) : List (Nat × OutgoingPacket) := s.history.filterMap (·.sentOn j)

/-- The times and sizes of what was sent on the link. -/
def State.linkSends (s : State) (j : LinkIx) : List LinkSend :=
  (s.sentOn j).map fun (t, p) => ⟨t, p.data.packetSize⟩

theorem Observation.sentOn_of_not_isSent {o : Observation} (h : o.isSent = false) (j : LinkIx) : o.sentOn j = none := by
  cases o <;> simp_all [sentOn, isSent]

/-- What happens besides sends: at most one observation is made, of something else. -/
theorem Effect.observes {net : InMemoryNetwork} {σ σ' : Scene} (h : Effect net σ σ') :
    σ'.state.history = σ.state.history ∨
      ∃ o : Observation, o.isSent = false ∧ σ'.state.history = σ.state.history ++ [o] := by
  rcases h.quiet_or_stay with hq | hs
  · exact .inl hq.history
  · generalize σ.state = s at hs
    generalize σ'.state = s' at hs
    cases hs with
    | accept i d buffer hbuffer htask => exact .inr ⟨_, rfl, rfl⟩
    | acceptInVain i d buffer hbuffer htask => exact .inr ⟨_, rfl, rfl⟩
    | offer i packet outbound links rolls =>
      exact .inr ⟨.offered packet.stay links, rfl, by rw [State.pushCopies_eq]; rfl⟩
    | panicOffer i packet outbound links done rest j rolls =>
      exact .inr ⟨.offered packet.stay links, rfl, by rw [State.pushCopies_eq]; rfl⟩
    | endNodeTask i task => exact .inl rfl

/-- What `NetworkLink::send` does to its link, with a packet that the link's task has a copy of. -/
structure SendFrame (net : InMemoryNetwork) (j : LinkIx) (p : OutgoingPacket) (slot : Nat) (s s' : State) : Prop where
  copy : ∃ c, s.copies j = c :: s'.copies j ∧ c.stay = p.stay ∧ c.srcNode = p.srcNode ∧ c.data.id = p.data.id ∧
    c.anomalies = p.anomalies
  paced : (s.links j).pacer.canSend s.now
  up : (s.links j).status.isDown = false
  history : s'.history = s.history ++ [.sent s.now j p]
  pacer : (s'.links j).pacer = (s.links j).pacer.trackSend s.now p.data.packetSize
  inTransit : (s'.links j).inTransit =
    ((s.links j).inTransit.send p.data ((net.link j).delay + p.anomalies.extraDelay) s.now slot).1
  log : s'.log = s.log ++ [⟨s.now - net.simulationStart, .packetInTransit (p.inTransitStep net j)⟩]

/-- The task of a link sends a packet, or makes an observation of something else, at most one. -/
theorem LinkEffect.sends {net : InMemoryNetwork} {s s' : State} {j : LinkIx} (h : LinkEffect net j s s') :
    (∃ p slot, SendFrame net j p slot s s') ∨
      (s'.history = s.history ∨ ∃ o : Observation, o.isSent = false ∧ o.accepts = none ∧ o.offers = none ∧
          s'.history = s.history ++ [o]) ∧
        (s'.links j).pacer = (s.links j).pacer ∧ (s'.links j).inTransit = (s.links j).inTransit := by
  cases h with
  | park p s₁ task hp =>
    obtain ⟨queue, rfl⟩ := hp.eq_dequeue
    refine .inr ⟨.inl rfl, ?_, ?_⟩ <;> simp [State.setLinkTask, State.dequeue, State.setLink]
  | discard p p' s₁ hp =>
    obtain ⟨queue, rfl⟩ := hp.eq_dequeue
    refine .inr ⟨.inr ⟨.discarded j p', rfl, rfl, rfl, rfl⟩, ?_, ?_⟩ <;>
      simp [State.setLinkTask, State.observe, State.dequeue, State.setLink]
  | clear p p' s₁ hp =>
    obtain ⟨queue, rfl⟩ := hp.eq_dequeue
    refine .inr ⟨.inr ⟨.cleared j p', rfl, rfl, rfl, rfl⟩, ?_, ?_⟩ <;>
      simp [State.setLinkTask, State.observe, State.dequeue, State.setLink, State.setHandled,
        State.trackDroppedByBufferClearEvent, State.trackDropped, State.record]
  | panicSend p p' s₁ hp =>
    obtain ⟨queue, rfl⟩ := hp.eq_dequeue
    refine .inr ⟨.inr ⟨.sendPanicked j p', rfl, rfl, rfl, rfl⟩, ?_, ?_⟩ <;>
      simp [State.panicLinkTask, State.setLinkTask, State.observe, State.dequeue, State.setLink, State.setHandled]
  | send p p' s₁ data slot hp hhandled hcleared hsane hdata =>
    have hcopies := hp.copies
    obtain ⟨links, rfl⟩ := hp.ready
    obtain ⟨queue, rfl⟩ := hp.eq_dequeue
    refine .inl ⟨{ p with preferredLinks := links, data }, slot,
      ⟨p, ?_, rfl, rfl, (id_applyCongestion hdata).symm, rfl⟩, ?_, ?_, rfl, ?_, ?_, rfl⟩
    · rw [hcopies]
      simp [State.copies, State.setLinkTask, State.observe, State.dequeue, State.setLink, State.setHandled, State.transmit,
        State.setNode, State.trackPacketInTransit, State.record, LinkTask.packet?]
    · rw [State.sanityChecks, Bool.and_eq_true] at hsane
      simpa [State.setHandled, State.dequeue, State.setLink] using hsane.1
    · rw [State.sanityChecks, Bool.and_eq_true] at hsane
      simpa [State.setHandled, State.dequeue, State.setLink] using hsane.2
    · simp [State.setLinkTask, State.observe, State.dequeue, State.setLink, State.setHandled, State.transmit,
        State.setNode, State.trackPacketInTransit, State.record]
    · simp [State.setLinkTask, State.observe, State.dequeue, State.setLink, State.setHandled, State.transmit,
        State.setNode, State.trackPacketInTransit, State.record]

theorem LinkEffect.inTransit_of_ne {net : InMemoryNetwork} {s s' : State} {j j' : LinkIx} (h : LinkEffect net j s s')
    (hj : j' ≠ j) : (s'.links j').inTransit = (s.links j').inTransit := by
  cases h with
  | park p s₁ task hp =>
    obtain ⟨queue, rfl⟩ := hp.eq_dequeue
    simp [State.setLinkTask, State.dequeue, State.setLink, hj]
  | discard p p' s₁ hp =>
    obtain ⟨queue, rfl⟩ := hp.eq_dequeue
    simp [State.setLinkTask, State.observe, State.dequeue, State.setLink, hj]
  | clear p p' s₁ hp =>
    obtain ⟨queue, rfl⟩ := hp.eq_dequeue
    simp [State.setLinkTask, State.observe, State.dequeue, State.setLink, State.setHandled,
      State.trackDroppedByBufferClearEvent, State.trackDropped, State.record, hj]
  | panicSend p p' s₁ hp =>
    obtain ⟨queue, rfl⟩ := hp.eq_dequeue
    simp [State.panicLinkTask, State.setLinkTask, State.observe, State.dequeue, State.setLink, State.setHandled, hj]
  | send p p' s₁ data slot hp =>
    obtain ⟨queue, rfl⟩ := hp.eq_dequeue
    simp [State.setLinkTask, State.observe, State.dequeue, State.setLink, State.setHandled, State.transmit,
      State.setNode, State.trackPacketInTransit, State.record, hj]

theorem LinkEffect.queues {net : InMemoryNetwork} {s s' : State} {j : LinkIx} (h : LinkEffect net j s s') (i : NodeIx) :
    (s'.nodes i).inbound = (s.nodes i).inbound ∧ (s'.nodes i).outbound = (s.nodes i).outbound := by
  cases h with
  | park p s₁ task hp => obtain ⟨queue, rfl⟩ := hp.eq_dequeue; exact ⟨rfl, rfl⟩
  | discard p p' s₁ hp => obtain ⟨queue, rfl⟩ := hp.eq_dequeue; exact ⟨rfl, rfl⟩
  | clear p p' s₁ hp => obtain ⟨queue, rfl⟩ := hp.eq_dequeue; exact ⟨rfl, rfl⟩
  | panicSend p p' s₁ hp => obtain ⟨queue, rfl⟩ := hp.eq_dequeue; exact ⟨rfl, rfl⟩
  | send p p' s₁ data slot hp =>
    obtain ⟨queue, rfl⟩ := hp.eq_dequeue
    by_cases hi : i = p'.srcNode <;>
      simp [State.transmit, State.setLinkTask, State.observe, State.setNode, State.setLink, State.setHandled,
        State.dequeue, State.trackPacketInTransit, State.record, hi]

theorem LinkEffect.inbound {net : InMemoryNetwork} {s s' : State} {j : LinkIx} (h : LinkEffect net j s s') (i : NodeIx) :
    (s'.nodes i).inbound = (s.nodes i).inbound := (h.queues i).1

theorem LinkEffect.outbound {net : InMemoryNetwork} {s s' : State} {j : LinkIx} (h : LinkEffect net j s s') (i : NodeIx) :
    (s'.nodes i).outbound = (s.nodes i).outbound := (h.queues i).2

namespace State
variable {s s' : State} {j : LinkIx}

theorem sentOn_of_observes (h : s'.history = s.history ∨
    ∃ o : Observation, o.isSent = false ∧ s'.history = s.history ++ [o]) (j : LinkIx) : s'.sentOn j = s.sentOn j := by
  rw [sentOn, sentOn]
  rcases h with heq | ⟨o, ho, heq⟩
  · rw [heq]
  · simp [heq, List.filterMap_append, Observation.sentOn_of_not_isSent ho]

theorem sentOn_of_unsent (h : s'.history = s.history ∨ ∃ o : Observation, o.isSent = false ∧ o.accepts = none ∧
    o.offers = none ∧ s'.history = s.history ++ [o]) (j : LinkIx) : s'.sentOn j = s.sentOn j := by
  rcases h with heq | ⟨o, ho, -, -, heq⟩
  · exact sentOn_of_observes (.inl heq) j
  · exact sentOn_of_observes (.inr ⟨o, ho, heq⟩) j

theorem sentOn_snoc {t : Nat} {p : OutgoingPacket} (h : s'.history = s.history ++ [.sent t j p]) (j' : LinkIx) :
    s'.sentOn j' = s.sentOn j' ++ if j' = j then [(t, p)] else [] := by
  rw [sentOn, sentOn, h, List.filterMap_append]
  by_cases hj : j' = j
  · simp [Observation.sentOn, hj]
  · simp [Observation.sentOn, hj, Ne.symm hj]

end State

/-! ### The bandwidth of a link -/

/-- Between two sends of a pacer, the bits of the first one and of those between them fit in the bandwidth. -/
theorem bits_between_le {bandwidthBps : Nat} (hB : 0 < bandwidthBps) {before between after : List LinkSend}
    {x y : LinkSend} (hpaced : Along (PacedSend bandwidthBps) (before ++ x :: between ++ y :: after)) :
    ((x :: between).map LinkSend.bits).sum * 1000000000 ≤ bandwidthBps * (y.time - x.time) ∧ x.time ≤ y.time := by
  have hy : PacedSend bandwidthBps (before ++ x :: between) y := hpaced.at
  have hsorted := sorted_of_paced hpaced.left
  rw [List.pairwise_append] at hsorted
  have hlater : ∀ z ∈ x :: between, x.time ≤ z.time := by
    intro z hz
    rcases List.mem_cons.1 hz with rfl | hz
    · exact Nat.le_refl _
    · exact (List.pairwise_cons.1 hsorted.2.1).1 z hz
  have hall : (x :: between).filter (fun z => x.time ≤ z.time) = x :: between :=
    List.filter_eq_self.2 fun z hz => decide_eq_true (hlater z hz)
  have hle : ((x :: between).map LinkSend.bits).sum ≤ bitsSince x.time (before ++ x :: between) := by
    rw [bitsSince, List.filter_append, hall, List.map_append, List.sum_append]
    exact Nat.le_add_left _ _
  refine ⟨(Nat.mul_le_mul_right _ hle).trans (bitsSince_le_of_canSend hB hpaced.left hy x.time), ?_⟩
  exact time_le_of_canSend hpaced.left hy x (by simp)

/-- The pacer of each link has let its sends through, one after the other. -/
def PacerInv (net : InMemoryNetwork) (s : State) : Prop :=
  ∀ j, (s.links j).pacer = pacerAfter (net.link j).bandwidthBps (s.linkSends j) ∧
    Along (PacedSend (net.link j).bandwidthBps) (s.linkSends j)

namespace PacerInv
variable {net : InMemoryNetwork} {s s' : State}

theorem frame (h : PacerInv net s) (hsent : ∀ j, s'.sentOn j = s.sentOn j)
    (hpacer : ∀ j, (s'.links j).pacer = (s.links j).pacer) : PacerInv net s' := by
  intro j
  rw [State.linkSends, hsent, hpacer]
  exact h j

theorem linkEffect {j : LinkIx} (h : PacerInv net s) (he : LinkEffect net j s s') : PacerInv net s' := by
  rcases he.sends with ⟨p, slot, hsend⟩ | ⟨hobserves, hpacer, -⟩
  · intro j'
    have hsent := State.sentOn_snoc hsend.history j'
    by_cases hj : j' = j
    · subst hj
      obtain ⟨hpacer, hpaced⟩ := h j'
      have hsends : s'.linkSends j' = s.linkSends j' ++ [⟨s.now, p.data.packetSize⟩] := by
        simp [State.linkSends, hsent]
      rw [hsends, pacerAfter_snoc, hsend.pacer, ← hpacer, along_snoc]
      refine ⟨rfl, hpaced, ?_⟩
      rw [PacedSend, ← hpacer]
      exact hsend.paced
    · rw [if_neg hj, List.append_nil] at hsent
      rw [State.linkSends, hsent, he.frame.pacer j' hj]
      exact h j'
  · refine h.frame (State.sentOn_of_unsent hobserves) fun j' => ?_
    by_cases hj : j' = j
    · rw [hj, hpacer]
    · exact he.frame.pacer j' hj

theorem event (h : PacerInv net s) (hf : State.EventFrame s s') : PacerInv net s' :=
  h.frame (State.sentOn_of_observes (.inl hf.history)) hf.pacer

theorem preserved (net : InMemoryNetwork) : Preserved net fun σ => PacerInv net σ.state where
  effect _ _ he h := h.frame (State.sentOn_of_observes he.observes) he.linkFrame.pacer
  link _ _ _ _ he h := h.linkEffect he
  linkEvent s event h := h.event (s.processLinkEvent_frame net event)
  nodeEvent s event h := h.event (s.processNodeEvent_frame net event)
  events _ _ h := h

theorem initial (net : InMemoryNetwork) (now : Nat) (events : List NetworkEvent) :
    PacerInv net (net.initialState now events) :=
  fun _ => ⟨rfl, along_nil⟩

end PacerInv

theorem Reaches.pacerInv {disableTimeWarping : Bool} {spec : NetworkSpec} {events : List NetworkEvent} {net : InMemoryNetwork}
    {s : State} (h : Reaches disableTimeWarping spec events net s) : PacerInv net s :=
  (PacerInv.preserved net).reaches (fun now events _ => .initial net now events) h

/-- Links never exceed their bandwidth: the time between two sends, in seconds, is at least what the bandwidth needs
for the first packet and those between the two. -/
theorem sends_within_bandwidth {disableTimeWarping : Bool} {spec : NetworkSpec} {events : List NetworkEvent}
    {net : InMemoryNetwork} {s : State} (h : Reaches disableTimeWarping spec events net s) {j : LinkIx}
    (hB : 0 < (net.link j).bandwidthBps) {before between after : List LinkSend} {x y : LinkSend}
    (hsends : s.linkSends j = before ++ x :: between ++ y :: after) :
    ((x :: between).map fun z => (z.bits : ℚ) / (net.link j).bandwidthBps).sum ≤
      ((y.time : ℚ) - x.time) / 1000000000 := by
  obtain ⟨hle, htime⟩ := bits_between_le hB (hsends ▸ (h.pacerInv j).2)
  have hsum : ((x :: between).map fun z => (z.bits : ℚ) / (net.link j).bandwidthBps).sum =
      ((((x :: between).map LinkSend.bits).sum : Nat) : ℚ) / (net.link j).bandwidthBps := by
    generalize x :: between = zs
    induction zs with
    | nil => simp
    | cons z zs ih => simp only [List.map_cons, List.sum_cons, ih, Nat.cast_add, add_div]
  have hcast : ((((x :: between).map LinkSend.bits).sum : Nat) : ℚ) * 1000000000 ≤
      (net.link j).bandwidthBps * ((y.time : ℚ) - x.time) := by
    rw [← Nat.cast_sub htime]
    exact_mod_cast hle
  rw [hsum, div_le_div_iff₀ (by exact_mod_cast hB) (by norm_num)]
  linarith

/-- `A` sends two packets of 128 bytes over a link with a bandwidth of 1 kB/s, the second one as soon as it can. -/
theorem sends_within_bandwidth_hostPair : ∃ net s, Reaches false (hostPair 8000 0) [] net s ∧
    s.linkSends 0 = [⟨0, 128⟩] ++ [⟨Duration.fromMillis 128, 128⟩] ∧
    ((1024 : ℚ) / 8000) ≤ (Duration.fromMillis 128 - 0) / 1000000000 := by
  obtain ⟨net, s, hreach, hs⟩ := exists_reaches_of_simulate (hostPair 8000 0) []
    (HostPair.sendFromA 1 ++ HostPair.sendFromA 2 ++
      [.linkTask 0 0, .linkTask 0 0, .advance (Duration.fromMillis 128), .linkTask 0 0])
    (fun net s => decide (s.linkSends 0 = [⟨0, 128⟩] ++ [⟨Duration.fromMillis 128, 128⟩]) &&
      decide ((net.link 0).bandwidthBps = 8000))
    (by decide +kernel)
  rw [Bool.and_eq_true, decide_eq_true_eq, decide_eq_true_eq] at hs
  obtain ⟨hsends, hB⟩ := hs
  have h := @sends_within_bandwidth _ _ _ _ _ hreach 0 (by omega) [] [] [] ⟨0, 128⟩ ⟨Duration.fromMillis 128, 128⟩ hsends
  refine ⟨net, s, hreach, hsends, ?_⟩
  norm_num [hB, LinkSend.bits] at h ⊢
  exact h

end QuicWorkbench
