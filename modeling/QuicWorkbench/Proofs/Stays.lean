import QuicWorkbench.Proofs.Runs
import Mathlib.Data.List.Nodup

/-!
# Stays of packets in outbound buffers

A stay begins when the outbound buffer of a node accepts a packet. The node's task offers the packet
to its candidate links, whose queues then hold copies of it, until one of the link tasks handles it.
`StaysInv` ties channels, copies and watch flags to the history: every copy is of a packet that was
accepted and offered, a flag is set exactly where the history shows that the packet was handled, and
no packet is handled twice. `Quiet` are the effects that have nothing to do with stays.
-/

namespace QuicWorkbench

/-- The stay, node and packet of an acceptance. -/
def Observation.accepts : Observation → Option (Nat × NodeIx × InTransitData)
  | .accepted k i d => some (k, i, d)
  | _ => none

/-- The stay and links of an offer. -/
def Observation.offers : Observation → Option (Nat × List LinkIx)
  | .offered k links => some (k, links)
  | _ => none

/-- The stay that is handled: the packet is passed to `NetworkLink::send`, or dropped by a clear-buffer
event. -/
def Observation.handles : Observation → Option Nat
  | .sent _ _ p | .sendPanicked _ p | .cleared _ p => some p.stay
  | _ => none

def acceptedStays (history : List Observation) : List Nat := history.filterMap fun o => o.accepts.map Prod.fst

def offeredStays (history : List Observation) : List Nat := history.filterMap fun o => o.offers.map Prod.fst

def handledStays (history : List Observation) : List Nat := history.filterMap Observation.handles

section
variable {h : List Observation} {o : Observation} {k : Nat} {i : NodeIx} {d : InTransitData} {links : List LinkIx}

theorem mem_acceptedStays : k ∈ acceptedStays h ↔ ∃ i d, .accepted k i d ∈ h := by
  simp only [acceptedStays, List.mem_filterMap]
  constructor
  · rintro ⟨o, ho, heq⟩
    cases o <;> simp [Observation.accepts] at heq
    subst heq
    exact ⟨_, _, ho⟩
  · rintro ⟨i, d, ho⟩
    exact ⟨_, ho, rfl⟩

theorem mem_offeredStays : k ∈ offeredStays h ↔ ∃ links, .offered k links ∈ h := by
  simp only [offeredStays, List.mem_filterMap]
  constructor
  · rintro ⟨o, ho, heq⟩
    cases o <;> simp [Observation.offers] at heq
    subst heq
    exact ⟨_, ho⟩
  · rintro ⟨links, ho⟩
    exact ⟨_, ho, rfl⟩

/-- A stay is accepted once, so its node and packet are determined. -/
theorem accepted_unique (hnodup : (acceptedStays h).Nodup) {i' : NodeIx} {d' : InTransitData}
    (ho : .accepted k i d ∈ h) (ho' : .accepted k i' d' ∈ h) : i' = i ∧ d' = d := by
  rw [acceptedStays, List.nodup_iff_pairwise_ne, List.pairwise_filterMap] at hnodup
  by_contra hne
  have hdiff : (Observation.accepted k i d) ≠ .accepted k i' d' := by
    rintro heq
    injection heq with _ hi hd
    exact hne ⟨hi.symm, hd.symm⟩
  have hsymm : Std.Symm (fun o o' : Observation => ∀ x, o.accepts.map Prod.fst = some x →
      ∀ y, o'.accepts.map Prod.fst = some y → x ≠ y) := ⟨fun o o' hoo y hy x hx => (hoo x hx y hy).symm⟩
  exact hnodup.forall ho ho' hdiff k rfl k rfl rfl

end

/-! ### Copies -/

namespace State

/-- The copies of packets that the task of the link has taken or has in its queue. -/
def copies (s : State) (j : LinkIx) : List OutgoingPacket :=
  (s.linkTasks j).packet?.toList ++ (s.links j).outgoingQueue

variable {net : InMemoryNetwork} {s s₁ : State} {j : LinkIx} {p : OutgoingPacket} {m : Move}

theorem pushCopies_spec (net : InMemoryNetwork) (i : NodeIx) (packet : BufferedPacket)
    (candidates links : List LinkIx) (rolls : Nat → Roll × Roll) (s : State) :
    ∃ links', pushCopies net i packet candidates links rolls s = { s with links := links' } ∧
      ∀ j, ∃ new, links' j = { s.links j with outgoingQueue := (s.links j).outgoingQueue ++ new } ∧
        new.length = links.count j ∧ ∀ c ∈ new, ∃ r, c = outgoing net i packet candidates j r := by
  induction links generalizing rolls s with
  | nil => exact ⟨s.links, rfl, fun j => ⟨[], by simp, by simp, by simp⟩⟩
  | cons j₀ links ih =>
    rw [pushCopies]
    obtain ⟨links', heq, hlinks⟩ := ih (fun k => rolls (k + 1))
      (s.pushOutgoing j₀ (outgoing net i packet candidates j₀ (rolls 0)))
    refine ⟨links', heq, fun j => ?_⟩
    obtain ⟨new, hj, hlen, hnew⟩ := hlinks j
    by_cases hjj : j = j₀
    · subst hjj
      refine ⟨outgoing net i packet candidates j (rolls 0) :: new, ?_, by simp [hlen], ?_⟩
      · rw [hj]
        simp [pushOutgoing, setLink]
      · rintro c hc
        rcases List.mem_cons.1 hc with rfl | hc
        · exact ⟨_, rfl⟩
        · exact hnew c hc
    · refine ⟨new, ?_, ?_, hnew⟩
      · rw [hj]
        simp [pushOutgoing, setLink, hjj]
      · rw [hlen, List.count_cons_of_ne (Ne.symm hjj)]

theorem pushCopies_eq (net : InMemoryNetwork) (i : NodeIx) (packet : BufferedPacket) (candidates links : List LinkIx)
    (rolls : Nat → Roll × Roll) (s : State) : pushCopies net i packet candidates links rolls s =
      { s with links := (pushCopies net i packet candidates links rolls s).links } := by
  obtain ⟨links', heq, -⟩ := pushCopies_spec net i packet candidates links rolls s
  rw [heq]

end State

namespace Picks
open State
variable {s s₁ : State} {j : LinkIx} {p : OutgoingPacket} {m : Move}

theorem copies (h : Picks j s p s₁ m) : s.copies j = p :: (s₁.links j).outgoingQueue := by
  cases h with
  | take queue htask hqueue hs hm =>
    subst hs
    simp [State.copies, htask, hqueue, LinkTask.packet?, dequeue, setLink]
  | resume hs htask hm =>
    subst hs
    simp [State.copies, htask]

theorem eq_dequeue (h : Picks j s p s₁ m) : ∃ queue, s₁ = s.dequeue j queue := by
  cases h with
  | take queue htask hqueue hs hm => exact ⟨queue, hs⟩
  | resume hs htask hm => exact ⟨(s.links j).outgoingQueue, by rw [hs]; simp [dequeue, setLink]⟩

theorem task_ne_panicked (h : Picks j s p s₁ m) : s.linkTasks j ≠ .panicked := by
  cases h with
  | take queue htask => simp [htask]
  | resume hs htask => intro heq; simp [heq, LinkTask.packet?] at htask

end Picks

/-! ### Effects that leave the stays alone -/

/-- What an effect leaves as it is that has nothing to do with stays. -/
structure Quiet (s s' : State) : Prop where
  now : s.now ≤ s'.now
  oneshots : s'.oneshots = s.oneshots
  handled : s'.handled = s.handled
  nodeTasks : s'.nodeTasks = s.nodeTasks
  linkTasks : s'.linkTasks = s.linkTasks
  nextStay : s'.nextStay = s.nextStay
  history : s'.history = s.history
  outboundBuffer : ∀ i, (s'.nodes i).outboundBuffer = (s.nodes i).outboundBuffer
  outbound : ∀ i, (s'.nodes i).outbound = (s.nodes i).outbound
  nodeStatus : ∀ i, (s'.nodes i).status = (s.nodes i).status
  lastBufferClear : ∀ i, (s'.nodes i).lastBufferClear = (s.nodes i).lastBufferClear
  linkStatus : ∀ j, (s'.links j).status = (s.links j).status
  lastDown : ∀ j, (s'.links j).lastDown = (s.links j).lastDown
  outgoingQueue : ∀ j, (s'.links j).outgoingQueue = (s.links j).outgoingQueue
  pacer : ∀ j, (s'.links j).pacer = (s.links j).pacer

/-- The effects on the stays. -/
inductive StayEffect (net : InMemoryNetwork) (s : State) : State → Prop
  | accept (i : NodeIx) (d : InTransitData) (buffer : OutboundBuffer)
      (hbuffer : (s.nodes i).outboundBuffer.reserve d.packetSize = some buffer) (htask : s.nodeTasks i = .running) :
      StayEffect net s ((s.accept i buffer d).pushOutbound i { inNodeSince := s.now, data := d, stay := s.nextStay })
  | acceptInVain (i : NodeIx) (d : InTransitData) (buffer : OutboundBuffer)
      (hbuffer : (s.nodes i).outboundBuffer.reserve d.packetSize = some buffer) (htask : s.nodeTasks i ≠ .running) :
      StayEffect net s (s.accept i buffer d)
  | offer (i : NodeIx) (packet : BufferedPacket) (outbound : List BufferedPacket)
      (links : List LinkIx) (rolls : Nat → Roll × Roll) (htask : s.nodeTasks i = .running)
      (hnext : (s.nodes i).outbound = packet :: outbound)
      (hlinks : net.candidateLinks (net.node i) packet.data.transmit.destination.ip = some links)
      (hall : ∀ j ∈ links, s.linkTasks j ≠ .panicked) :
      StayEffect net s (State.pushCopies net i packet links links rolls (s.takeOutbound i packet outbound links))
  | panicOffer (i : NodeIx) (packet : BufferedPacket) (outbound : List BufferedPacket)
      (links done rest : List LinkIx) (j : LinkIx) (rolls : Nat → Roll × Roll) (htask : s.nodeTasks i = .running)
      (hnext : (s.nodes i).outbound = packet :: outbound)
      (hlinks : net.candidateLinks (net.node i) packet.data.transmit.destination.ip = some links)
      (hsplit : links = done ++ j :: rest) (hpanicked : s.linkTasks j = .panicked) :
      StayEffect net s ((State.pushCopies net i packet links done rolls
        (s.takeOutbound i packet outbound links)).endNodeTask i .panicked)
  | endNodeTask (i : NodeIx) (task : NodeTask) (htask : s.nodeTasks i = .running) (hend : task ≠ .running) :
      StayEffect net s (s.endNodeTask i task)

theorem Quiet.of_eq {s s' : State} (hnodes : s'.nodes = s.nodes) (hlinks : s'.links = s.links)
    (hrest : s'.now = s.now ∧ s'.oneshots = s.oneshots ∧ s'.handled = s.handled ∧ s'.nodeTasks = s.nodeTasks ∧
      s'.linkTasks = s.linkTasks ∧ s'.nextStay = s.nextStay ∧ s'.history = s.history) : Quiet s s' := by
  obtain ⟨hnow, honeshots, hhandled, hnodeTasks, hlinkTasks, hnextStay, hhistory⟩ := hrest
  constructor <;> simp [*]

theorem Effect.quiet_or_stay {net : InMemoryNetwork} {σ σ' : Scene} (h : Effect net σ σ') :
    Quiet σ.state σ'.state ∨ StayEffect net σ.state σ'.state := by
  cases h with
  | advance s duration =>
    left
    constructor <;> simp
  | sendInbound h s i d slot =>
    left
    constructor
    all_goals first
      | rfl
      | exact Nat.le_refl _
      | (intro i'; by_cases hi : i' = i <;> simp [State.sendInbound, State.setNode, hi])
  | takeInbound h s i q delivery batch =>
    left
    constructor
    all_goals first
      | rfl
      | exact Nat.le_refl _
      | (intro i'; by_cases hi : i' = i <;> simp [State.setNode, hi])
  | takeInTransit h s j q delivery batch =>
    left
    constructor
    all_goals first
      | rfl
      | exact Nat.le_refl _
      | (intro j'; by_cases hj : j' = j <;> simp [State.setInTransit, State.setForwarder, State.setLink, hj])
  | accept h s i d buffer hbuffer htask => exact .inr (.accept i d buffer hbuffer htask)
  | acceptInVain h s i d buffer hbuffer htask => exact .inr (.acceptInVain i d buffer hbuffer htask)
  | offer h s i packet outbound links rolls htask hnext hlinks hall =>
    exact .inr (.offer i packet outbound links rolls htask hnext hlinks hall)
  | panicOffer h s i packet outbound links done rest j rolls htask hnext hlinks hsplit hpanicked =>
    exact .inr (.panicOffer i packet outbound links done rest j rolls htask hnext hlinks hsplit hpanicked)
  | endNodeTask h s i task htask hend => exact .inr (.endNodeTask i task htask hend)
  | create => exact .inl (.of_eq rfl rfl ⟨rfl, rfl, rfl, rfl, rfl, rfl, rfl⟩)
  | abandon => exact .inl (.of_eq rfl rfl ⟨rfl, rfl, rfl, rfl, rfl, rfl, rfl⟩)
  | dropOnArrival => exact .inl (.of_eq rfl rfl ⟨rfl, rfl, rfl, rfl, rfl, rfl, rfl⟩)
  | enter => exact .inl (.of_eq rfl rfl ⟨rfl, rfl, rfl, rfl, rfl, rfl, rfl⟩)
  | loseInTransit => exact .inl (.of_eq rfl rfl ⟨rfl, rfl, rfl, rfl, rfl, rfl, rfl⟩)
  | dropRandomly => exact .inl (.of_eq rfl rfl ⟨rfl, rfl, rfl, rfl, rfl, rfl, rfl⟩)
  | duplicate => exact .inl (.of_eq rfl rfl ⟨rfl, rfl, rfl, rfl, rfl, rfl, rfl⟩)
  | introduce => exact .inl (.of_eq rfl rfl ⟨rfl, rfl, rfl, rfl, rfl, rfl, rfl⟩)
  | dropBecauseBufferFull => exact .inl (.of_eq rfl rfl ⟨rfl, rfl, rfl, rfl, rfl, rfl, rfl⟩)
  | panicForwarder => exact .inl (.of_eq rfl rfl ⟨rfl, rfl, rfl, rfl, rfl, rfl, rfl⟩)
  | read => exact .inl (.of_eq rfl rfl ⟨rfl, rfl, rfl, rfl, rfl, rfl, rfl⟩)

/-! ### The invariant -/

structure StaysInv (net : InMemoryNetwork) (s : State) : Prop where
  acceptedNodup : (acceptedStays s.history).Nodup
  acceptedLt : ∀ k ∈ acceptedStays s.history, k < s.nextStay
  outbound : ∀ i, ∀ b ∈ (s.nodes i).outbound,
    .accepted b.stay i b.data ∈ s.history ∧ b.stay ∉ offeredStays s.history
  outboundNodup : ∀ i, ((s.nodes i).outbound.map BufferedPacket.stay).Nodup
  offered : ∀ k links, .offered k links ∈ s.history → ∃ i d, .accepted k i d ∈ s.history ∧
    net.candidateLinks (net.node i) d.transmit.destination.ip = some links
  offeredNodup : (offeredStays s.history).Nodup
  copy : ∀ j, ∀ c ∈ s.copies j, .accepted c.stay c.srcNode c.data ∈ s.history ∧
    ∃ links, .offered c.stay links ∈ s.history ∧ j ∈ links
  handled : ∀ k, s.handled k = true ↔ k ∈ handledStays s.history
  handledNodup : (handledStays s.history).Nodup
  handledOffered : ∀ k ∈ handledStays s.history, k ∈ offeredStays s.history

/-- The two copies differ in their preferred links at most. -/
def OutgoingPacket.SameCopy (c c' : OutgoingPacket) : Prop :=
  c.stay = c'.stay ∧ c.srcNode = c'.srcNode ∧ c.data = c'.data ∧ c.inNodeSince = c'.inNodeSince

theorem OutgoingPacket.SameCopy.refl (c : OutgoingPacket) : c.SameCopy c := ⟨rfl, rfl, rfl, rfl⟩

section
variable (h : List Observation) (o : Observation)

theorem acceptedStays_snoc : acceptedStays (h ++ [o]) = acceptedStays h ++ (o.accepts.map Prod.fst).toList := by
  cases o <;> simp [acceptedStays, Observation.accepts]

theorem offeredStays_snoc : offeredStays (h ++ [o]) = offeredStays h ++ (o.offers.map Prod.fst).toList := by
  cases o <;> simp [offeredStays, Observation.offers]

theorem handledStays_snoc : handledStays (h ++ [o]) = handledStays h ++ o.handles.toList := by
  cases o <;> simp [handledStays, Observation.handles]

end

theorem nodup_snoc {α : Type} {l : List α} {a : α} (h : l.Nodup) (ha : a ∉ l) : (l ++ [a]).Nodup :=
  List.nodup_append.2 ⟨h, List.nodup_singleton a, by rintro x hx y hy rfl; exact ha (List.mem_singleton.1 hy ▸ hx)⟩

namespace StaysInv
variable {net : InMemoryNetwork} {s s' : State}

theorem initial (net : InMemoryNetwork) (now : Nat) (events : List NetworkEvent) :
    StaysInv net (net.initialState now events) := by
  constructor <;> simp [InMemoryNetwork.initialState, acceptedStays, offeredStays, handledStays, NodeState.new,
    NetworkLink.new, State.copies, LinkTask.packet?]

theorem frame (h : StaysInv net s)
    (hhistory : s'.history = s.history ∨ ∃ j p, s'.history = s.history ++ [.discarded j p])
    (hnext : s'.nextStay = s.nextStay) (hhandled : s'.handled = s.handled)
    (houtbound : ∀ i, (s'.nodes i).outbound.Sublist (s.nodes i).outbound)
    (hcopies : ∀ j, ∀ c ∈ s'.copies j, ∃ c' ∈ s.copies j, c.SameCopy c') : StaysInv net s' := by
  obtain ⟨hacc, hoff, hhan⟩ : acceptedStays s'.history = acceptedStays s.history ∧
      offeredStays s'.history = offeredStays s.history ∧ handledStays s'.history = handledStays s.history := by
    rcases hhistory with heq | ⟨j, p, heq⟩
    · simp [heq]
    · simp [heq, acceptedStays_snoc, offeredStays_snoc, handledStays_snoc, Observation.accepts, Observation.offers,
        Observation.handles]
  have hmono : ∀ o ∈ s.history, o ∈ s'.history := by
    rcases hhistory with heq | ⟨j, p, heq⟩
    · exact fun o ho => heq ▸ ho
    · exact fun o ho => heq ▸ List.mem_append_left _ ho
  have hoffers : ∀ k links, .offered k links ∈ s'.history → .offered k links ∈ s.history := by
    rcases hhistory with heq | ⟨j, p, heq⟩ <;> simp [heq]
  constructor
  case acceptedNodup => rw [hacc]; exact h.acceptedNodup
  case acceptedLt => rw [hacc, hnext]; exact h.acceptedLt
  case outbound =>
    intro i b hb
    obtain ⟨hb₁, hb₂⟩ := h.outbound i b ((houtbound i).subset hb)
    exact ⟨hmono _ hb₁, hoff ▸ hb₂⟩
  case outboundNodup => exact fun i => (h.outboundNodup i).sublist ((houtbound i).map _)
  case offered =>
    intro k links hk
    obtain ⟨i, d, ha, hl⟩ := h.offered k links (hoffers k links hk)
    exact ⟨i, d, hmono _ ha, hl⟩
  case offeredNodup => rw [hoff]; exact h.offeredNodup
  case copy =>
    intro j c hc
    obtain ⟨c', hc', hstay, hsrc, hdata, -⟩ := hcopies j c hc
    obtain ⟨ha, links, hl, hj⟩ := h.copy j c' hc'
    rw [hstay, hsrc, hdata]
    exact ⟨hmono _ ha, links, hmono _ hl, hj⟩
  case handled => rw [hhan, hhandled]; exact h.handled
  case handledNodup => rw [hhan]; exact h.handledNodup
  case handledOffered => rw [hhan, hoff]; exact h.handledOffered

theorem quiet (h : StaysInv net s) (hq : Quiet s s') : StaysInv net s' := by
  refine h.frame (.inl hq.history) hq.nextStay hq.handled (fun i => hq.outbound i ▸ List.Sublist.refl _) fun j c hc => ?_
  rw [State.copies, hq.linkTasks, hq.outgoingQueue j] at hc
  exact ⟨c, hc, .refl c⟩

theorem event (h : StaysInv net s) (hf : State.EventFrame s s') : StaysInv net s' := by
  refine h.frame (.inl hf.history) hf.nextStay hf.handled (fun i => hf.outbound i ▸ List.Sublist.refl _) fun j c hc => ?_
  rw [State.copies, hf.linkTasks, hf.outgoingQueue j] at hc
  exact ⟨c, hc, .refl c⟩

theorem accept (h : StaysInv net s) (i : NodeIx) (buffer : OutboundBuffer) (d : InTransitData) :
    StaysInv net (s.accept i buffer d) := by
  have hfresh : s.nextStay ∉ acceptedStays s.history := fun hk => Nat.lt_irrefl _ (h.acceptedLt _ hk)
  have hhist : (s.accept i buffer d).history = s.history ++ [.accepted s.nextStay i d] := rfl
  have hout : ∀ i', ((s.accept i buffer d).nodes i').outbound = (s.nodes i').outbound :=
    fun i' => s.outbound_accept i buffer d i'
  have hoff : offeredStays (s.accept i buffer d).history = offeredStays s.history := by
    simp [hhist, offeredStays_snoc, Observation.offers]
  have hhan : handledStays (s.accept i buffer d).history = handledStays s.history := by
    simp [hhist, handledStays_snoc, Observation.handles]
  constructor
  case acceptedNodup =>
    rw [hhist, acceptedStays_snoc]
    exact nodup_snoc h.acceptedNodup hfresh
  case acceptedLt =>
    rw [hhist, acceptedStays_snoc]
    intro k hk
    show k < s.nextStay + 1
    rcases List.mem_append.1 hk with hk | hk
    · exact Nat.lt_succ_of_lt (h.acceptedLt k hk)
    · rw [show k = s.nextStay by simpa [Observation.accepts] using hk]
      exact Nat.lt_succ_self _
  case outbound =>
    intro i' b hb
    rw [hout i'] at hb
    rw [hoff, hhist]
    exact ⟨List.mem_append_left _ (h.outbound i' b hb).1, (h.outbound i' b hb).2⟩
  case outboundNodup => intro i'; rw [hout i']; exact h.outboundNodup i'
  case offered =>
    intro k links hk
    rw [hhist] at hk ⊢
    obtain ⟨i', d', hacc, hlinks⟩ := h.offered k links (by simpa using hk)
    exact ⟨i', d', List.mem_append_left _ hacc, hlinks⟩
  case offeredNodup => rw [hoff]; exact h.offeredNodup
  case copy =>
    intro j c hc
    obtain ⟨hacc, links, hlinks, hj⟩ := h.copy j c hc
    rw [hhist]
    exact ⟨List.mem_append_left _ hacc, links, List.mem_append_left _ hlinks, hj⟩
  case handled => rw [hhan]; exact h.handled
  case handledNodup => rw [hhan]; exact h.handledNodup
  case handledOffered => rw [hhan, hoff]; exact h.handledOffered

theorem pushOutbound (h : StaysInv net s) {i : NodeIx} {b : BufferedPacket} (hacc : .accepted b.stay i b.data ∈ s.history)
    (hoff : b.stay ∉ offeredStays s.history) (hnew : b.stay ∉ (s.nodes i).outbound.map BufferedPacket.stay) :
    StaysInv net (s.pushOutbound i b) := by
  have hout : ∀ i', ((s.pushOutbound i b).nodes i').outbound =
      if i' = i then (s.nodes i).outbound ++ [b] else (s.nodes i').outbound := fun i' => by
    by_cases hi : i' = i <;> simp [State.pushOutbound, State.setNode, hi]
  refine { h with outbound := fun i' b' hb => ?_, outboundNodup := fun i' => ?_ }
  · rw [hout i'] at hb
    split_ifs at hb with hi
    · subst hi
      rcases List.mem_append.1 hb with hb | hb
      · exact h.outbound i' b' hb
      · obtain rfl := List.mem_singleton.1 hb
        exact ⟨hacc, hoff⟩
    · exact h.outbound i' b' hb
  · rw [hout i']
    split_ifs with hi
    · rw [List.map_append]
      exact nodup_snoc (h.outboundNodup i) hnew
    · exact h.outboundNodup i'

theorem takeOutbound (h : StaysInv net s) {i : NodeIx} {packet : BufferedPacket} {outbound : List BufferedPacket}
    {links : List LinkIx} (hnext : (s.nodes i).outbound = packet :: outbound)
    (hlinks : net.candidateLinks (net.node i) packet.data.transmit.destination.ip = some links) :
    StaysInv net (s.takeOutbound i packet outbound links) := by
  obtain ⟨hacc, hnew⟩ := h.outbound i packet (by simp [hnext])
  have hhist : (s.takeOutbound i packet outbound links).history = s.history ++ [.offered packet.stay links] := rfl
  have hacc' : acceptedStays (s.takeOutbound i packet outbound links).history = acceptedStays s.history := by
    simp [hhist, acceptedStays_snoc, Observation.accepts]
  have hhan : handledStays (s.takeOutbound i packet outbound links).history = handledStays s.history := by
    simp [hhist, handledStays_snoc, Observation.handles]
  have hoff : offeredStays (s.takeOutbound i packet outbound links).history = offeredStays s.history ++ [packet.stay] := by
    simp [hhist, offeredStays_snoc, Observation.offers]
  have hout : ∀ i', ((s.takeOutbound i packet outbound links).nodes i').outbound =
      if i' = i then outbound else (s.nodes i').outbound := fun i' => by
    by_cases hi : i' = i <;> simp [State.takeOutbound, State.observe, State.setNode, hi]
  have hsub : ∀ i', ((s.takeOutbound i packet outbound links).nodes i').outbound.Sublist (s.nodes i').outbound := by
    intro i'
    rw [hout i']
    split_ifs with hi
    · rw [hi, hnext]
      exact List.sublist_cons_self ..
    · exact List.Sublist.refl _
  constructor
  case acceptedNodup => rw [hacc']; exact h.acceptedNodup
  case acceptedLt => rw [hacc']; exact h.acceptedLt
  case outbound =>
    intro i' b hb
    obtain ⟨hb₁, hb₂⟩ := h.outbound i' b ((hsub i').subset hb)
    refine ⟨hhist ▸ List.mem_append_left _ hb₁, ?_⟩
    rw [hoff, List.mem_append, List.mem_singleton, not_or]
    refine ⟨hb₂, fun heq => ?_⟩
    -- another packet with the same stay would be at the same node, and in its channel twice
    rw [heq] at hb₁
    obtain ⟨rfl, -⟩ := accepted_unique h.acceptedNodup hacc hb₁
    have hnodup := h.outboundNodup i'
    rw [hnext, List.map_cons, List.nodup_cons] at hnodup
    rw [hout, if_pos rfl] at hb
    exact hnodup.1 (heq ▸ List.mem_map_of_mem hb)
  case outboundNodup => exact fun i' => (h.outboundNodup i').sublist ((hsub i').map _)
  case offered =>
    intro k links' hk
    rw [hhist] at hk ⊢
    rcases List.mem_append.1 hk with hk | hk
    · obtain ⟨i', d', ha, hl⟩ := h.offered k links' hk
      exact ⟨i', d', List.mem_append_left _ ha, hl⟩
    · obtain ⟨rfl, rfl⟩ := by simpa using hk
      exact ⟨i, packet.data, List.mem_append_left _ hacc, hlinks⟩
  case offeredNodup => rw [hoff]; exact nodup_snoc h.offeredNodup hnew
  case copy =>
    intro j c hc
    obtain ⟨ha, links', hl, hj⟩ := h.copy j c hc
    rw [hhist]
    exact ⟨List.mem_append_left _ ha, links', List.mem_append_left _ hl, hj⟩
  case handled => rw [hhan]; exact h.handled
  case handledNodup => rw [hhan]; exact h.handledNodup
  case handledOffered =>
    rw [hhan, hoff]
    exact fun k hk => List.mem_append_left _ (h.handledOffered k hk)

theorem pushCopies (h : StaysInv net s) {i : NodeIx} {packet : BufferedPacket} {candidates done : List LinkIx}
    (rolls : Nat → Roll × Roll) (hacc : .accepted packet.stay i packet.data ∈ s.history)
    (hoff : .offered packet.stay candidates ∈ s.history) (hdone : ∀ j ∈ done, j ∈ candidates) :
    StaysInv net (State.pushCopies net i packet candidates done rolls s) := by
  obtain ⟨links', heq, hlinks⟩ := State.pushCopies_spec net i packet candidates done rolls s
  rw [heq]
  refine { h with copy := fun j c hc => ?_ }
  obtain ⟨new, hj, hlen, hnew⟩ := hlinks j
  have hc : c ∈ s.copies j ∨ c ∈ new := by
    simp only [State.copies, hj, List.mem_append] at hc ⊢
    tauto
  rcases hc with hc | hc
  · exact h.copy j c hc
  · obtain ⟨r, rfl⟩ := hnew c hc
    refine ⟨hacc, candidates, hoff, hdone j ?_⟩
    rw [← List.count_pos_iff, ← hlen]
    exact List.length_pos_of_mem hc

theorem endNodeTask (h : StaysInv net s) (i : NodeIx) (task : NodeTask) : StaysInv net (s.endNodeTask i task) := by
  refine h.frame (.inl rfl) rfl rfl (fun i' => ?_) fun j c hc => ⟨c, hc, .refl c⟩
  by_cases hi : i' = i
  · simp [State.endNodeTask, State.setNodeTask, State.setNode, hi]
  · simp [State.endNodeTask, State.setNodeTask, State.setNode, hi]

theorem stayEffect (h : StaysInv net s) (he : StayEffect net s s') : StaysInv net s' := by
  cases he with
  | accept i d buffer hbuffer htask =>
    have hfresh : s.nextStay ∉ acceptedStays s.history := fun hk => Nat.lt_irrefl _ (h.acceptedLt _ hk)
    refine (h.accept i buffer d).pushOutbound (List.mem_append_right _ (List.mem_singleton_self _)) ?_ ?_
    · show s.nextStay ∉ offeredStays (s.history ++ [.accepted s.nextStay i d])
      rw [offeredStays_snoc]
      intro hk
      obtain ⟨links, hk⟩ := mem_offeredStays.1 (show s.nextStay ∈ offeredStays s.history by
        simpa [Observation.offers] using hk)
      obtain ⟨i', d', hacc, -⟩ := h.offered _ _ hk
      exact hfresh (mem_acceptedStays.2 ⟨i', d', hacc⟩)
    · intro hk
      rw [State.outbound_accept] at hk
      obtain ⟨b, hb, heq⟩ := List.mem_map.1 hk
      have := (h.outbound i b hb).1
      rw [heq] at this
      exact hfresh (mem_acceptedStays.2 ⟨i, b.data, this⟩)
  | acceptInVain i d buffer hbuffer htask => exact h.accept i buffer d
  | offer i packet outbound links rolls htask hnext hlinks hall =>
    have hacc := (h.outbound i packet (by simp [hnext])).1
    exact (h.takeOutbound hnext hlinks).pushCopies rolls (List.mem_append_left _ hacc)
      (List.mem_append_right _ (List.mem_singleton_self _)) fun j hj => hj
  | panicOffer i packet outbound links done rest j rolls htask hnext hlinks hsplit hpanicked =>
    have hacc := (h.outbound i packet (by simp [hnext])).1
    refine StaysInv.endNodeTask ?_ i _
    refine (h.takeOutbound hnext hlinks).pushCopies rolls (List.mem_append_left _ hacc)
      (List.mem_append_right _ (List.mem_singleton_self _)) fun j hj => ?_
    rw [hsplit]
    exact List.mem_append_left _ hj
  | endNodeTask i task htask hend => exact h.endNodeTask i task

theorem handle (h : StaysInv net s) {o : Observation} {k : Nat} (hk : o.handles = some k) (hun : s.handled k = false)
    (hoff : k ∈ offeredStays s.history) (hhistory : s'.history = s.history ++ [o])
    (hhandled : s'.handled = Function.update s.handled k true) (hnext : s'.nextStay = s.nextStay)
    (houtbound : ∀ i, (s'.nodes i).outbound = (s.nodes i).outbound)
    (hcopies : ∀ j, ∀ c ∈ s'.copies j, ∃ c' ∈ s.copies j, c.SameCopy c') : StaysInv net s' := by
  have hacc : acceptedStays s'.history = acceptedStays s.history := by
    rw [hhistory, acceptedStays_snoc]
    cases o <;> simp [Observation.accepts, Observation.handles] at hk ⊢
  have hoffered : offeredStays s'.history = offeredStays s.history := by
    rw [hhistory, offeredStays_snoc]
    cases o <;> simp [Observation.offers, Observation.handles] at hk ⊢
  have hhan : handledStays s'.history = handledStays s.history ++ [k] := by
    rw [hhistory, handledStays_snoc, hk]
    rfl
  have hnew : k ∉ handledStays s.history := fun hmem => by
    rw [(h.handled k).2 hmem] at hun
    exact Bool.noConfusion hun
  have hmono : ∀ o' ∈ s.history, o' ∈ s'.history := fun o' ho' => hhistory ▸ List.mem_append_left _ ho'
  constructor
  case acceptedNodup => rw [hacc]; exact h.acceptedNodup
  case acceptedLt => rw [hacc, hnext]; exact h.acceptedLt
  case outbound =>
    intro i b hb
    rw [houtbound i] at hb
    rw [hoffered]
    exact ⟨hmono _ (h.outbound i b hb).1, (h.outbound i b hb).2⟩
  case outboundNodup => intro i; rw [houtbound i]; exact h.outboundNodup i
  case offered =>
    intro k' links hk'
    have hk' : k' ∈ offeredStays s'.history ∧ .offered k' links ∈ s.history := by
      refine ⟨mem_offeredStays.2 ⟨links, hk'⟩, ?_⟩
      rw [hhistory] at hk'
      rcases List.mem_append.1 hk' with hk' | hk'
      · exact hk'
      · rw [← List.mem_singleton.1 hk'] at hk
        simp [Observation.handles] at hk
    obtain ⟨i, d, ha, hl⟩ := h.offered k' links hk'.2
    exact ⟨i, d, hmono _ ha, hl⟩
  case offeredNodup => rw [hoffered]; exact h.offeredNodup
  case copy =>
    intro j c hc
    obtain ⟨c', hc', hstay, hsrc, hdata, -⟩ := hcopies j c hc
    obtain ⟨ha, links, hl, hj⟩ := h.copy j c' hc'
    rw [hstay, hsrc, hdata]
    exact ⟨hmono _ ha, links, hmono _ hl, hj⟩
  case handled =>
    intro k'
    rw [hhan, hhandled]
    by_cases heq : k' = k
    · simp [heq]
    · rw [Function.update_of_ne heq, h.handled k']
      simp [heq]
  case handledNodup => rw [hhan]; exact nodup_snoc h.handledNodup hnew
  case handledOffered =>
    rw [hhan, hoffered]
    intro k' hk'
    rcases List.mem_append.1 hk' with hk' | hk'
    · exact h.handledOffered k' hk'
    · exact List.mem_singleton.1 hk' ▸ hoff

end StaysInv

namespace LinkEffect
variable {net : InMemoryNetwork} {s s' : State} {j : LinkIx}

theorem copies_of_ne (h : LinkEffect net j s s') {j' : LinkIx} (hj : j' ≠ j) : s'.copies j' = s.copies j' := by
  cases h with
  | park p s₁ task h =>
    obtain ⟨queue, rfl⟩ := h.eq_dequeue
    simp [State.copies, State.setLinkTask, State.dequeue, State.setLink, hj]
  | discard p p' s₁ h =>
    obtain ⟨queue, rfl⟩ := h.eq_dequeue
    simp [State.copies, State.setLinkTask, State.dequeue, State.setLink, State.observe, hj]
  | clear p p' s₁ h =>
    obtain ⟨queue, rfl⟩ := h.eq_dequeue
    simp [State.copies, State.setLinkTask, State.dequeue, State.setLink, State.observe, State.setHandled,
      State.trackDroppedByBufferClearEvent, State.trackDropped, State.record, hj]
  | send p p' s₁ data slot h =>
    obtain ⟨queue, rfl⟩ := h.eq_dequeue
    simp [State.copies, State.setLinkTask, State.dequeue, State.setLink, State.observe, State.setHandled,
      State.transmit, State.setNode, State.trackPacketInTransit, State.record, hj]
  | panicSend p p' s₁ h =>
    obtain ⟨queue, rfl⟩ := h.eq_dequeue
    simp [State.copies, State.setLinkTask, State.dequeue, State.setLink, State.observe, State.setHandled,
      State.panicLinkTask, hj]

theorem copies_self (h : LinkEffect net j s s') : ∀ c ∈ s'.copies j, ∃ c' ∈ s.copies j, c.SameCopy c' := by
  cases h with
  | park p s₁ task h =>
    intro c hc
    rw [h.copies]
    obtain ⟨links, htask⟩ := h.await
    simp only [State.copies, State.setLinkTask, Function.update_self, htask, Option.toList_some,
      List.cons_append, List.nil_append, List.mem_cons] at hc
    rcases hc with rfl | hc
    · exact ⟨p, List.mem_cons_self .., rfl, rfl, rfl, rfl⟩
    · exact ⟨c, List.mem_cons_of_mem _ hc, .refl c⟩
  | discard p p' s₁ h =>
    intro c hc
    rw [h.copies]
    refine ⟨c, List.mem_cons_of_mem _ ?_, .refl c⟩
    simpa [State.copies, State.setLinkTask, State.observe, LinkTask.packet?] using hc
  | clear p p' s₁ h =>
    intro c hc
    rw [h.copies]
    refine ⟨c, List.mem_cons_of_mem _ ?_, .refl c⟩
    simpa [State.copies, State.setLinkTask, State.observe, LinkTask.packet?, State.setHandled,
      State.trackDroppedByBufferClearEvent, State.trackDropped, State.record] using hc
  | send p p' s₁ data slot h =>
    intro c hc
    rw [h.copies]
    refine ⟨c, List.mem_cons_of_mem _ ?_, .refl c⟩
    simpa [State.copies, State.setLinkTask, State.observe, LinkTask.packet?, State.setHandled, State.setLink,
      State.transmit, State.setNode, State.trackPacketInTransit, State.record] using hc
  | panicSend p p' s₁ h =>
    intro c hc
    simp [State.copies, State.setLinkTask, State.panicLinkTask, LinkTask.packet?, State.setLink] at hc

theorem copies_same (h : LinkEffect net j s s') (j' : LinkIx) : ∀ c ∈ s'.copies j', ∃ c' ∈ s.copies j', c.SameCopy c' := by
  by_cases hj : j' = j
  · subst hj
    exact h.copies_self
  · rw [h.copies_of_ne hj]
    exact fun c hc => ⟨c, hc, .refl c⟩

end LinkEffect

namespace StaysInv
variable {net : InMemoryNetwork} {s s' : State}

theorem linkEffect (h : StaysInv net s) {j : LinkIx} (he : LinkEffect net j s s') : StaysInv net s' := by
  have hcopies := he.copies_same
  cases he with
  | park p s₁ task hp =>
    obtain ⟨queue, rfl⟩ := hp.eq_dequeue
    exact h.frame (.inl rfl) rfl rfl (fun i => List.Sublist.refl _) hcopies
  | discard p p' s₁ hp =>
    obtain ⟨queue, rfl⟩ := hp.eq_dequeue
    exact h.frame (.inr ⟨j, p', rfl⟩) rfl rfl (fun i => List.Sublist.refl _) hcopies
  | clear p p' s₁ hp hun hcleared =>
    have hoff := (h.copy j p (by rw [hp.copies]; exact List.mem_cons_self ..)).2
    obtain ⟨queue, rfl⟩ := hp.eq_dequeue
    obtain ⟨links, rfl⟩ := hp.ready
    obtain ⟨links, hoff, -⟩ := hoff
    exact h.handle rfl hun (mem_offeredStays.2 ⟨links, hoff⟩) rfl rfl rfl (fun i => rfl) hcopies
  | send p p' s₁ data slot hp hun hcleared hsane hdata =>
    have hoff := (h.copy j p (by rw [hp.copies]; exact List.mem_cons_self ..)).2
    obtain ⟨queue, rfl⟩ := hp.eq_dequeue
    obtain ⟨links, rfl⟩ := hp.ready
    obtain ⟨links, hoff, -⟩ := hoff
    refine h.handle rfl hun (mem_offeredStays.2 ⟨links, hoff⟩) rfl rfl rfl (fun i => ?_) hcopies
    by_cases hi : i = p.srcNode <;>
      simp [State.transmit, State.setLinkTask, State.observe, State.setNode, State.setLink, State.setHandled,
        State.dequeue, State.trackPacketInTransit, State.record, hi]
  | panicSend p p' s₁ hp hun hcleared hpanic =>
    have hoff := (h.copy j p (by rw [hp.copies]; exact List.mem_cons_self ..)).2
    obtain ⟨queue, rfl⟩ := hp.eq_dequeue
    obtain ⟨links, rfl⟩ := hp.ready
    obtain ⟨links, hoff, -⟩ := hoff
    exact h.handle rfl hun (mem_offeredStays.2 ⟨links, hoff⟩) rfl rfl rfl (fun i => rfl) hcopies

theorem preserved (net : InMemoryNetwork) : Preserved net fun σ => StaysInv net σ.state where
  effect σ σ' he h := by
    rcases he.quiet_or_stay with hq | hs
    · exact h.quiet hq
    · exact h.stayEffect hs
  link j s s' hj he h := h.linkEffect he
  linkEvent s event h := h.event (s.processLinkEvent_frame net event)
  nodeEvent s event h := h.event (s.processNodeEvent_frame net event)
  events s events h := { h with }

end StaysInv

end QuicWorkbench
