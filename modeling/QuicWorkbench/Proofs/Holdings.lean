import QuicWorkbench.Proofs.Handled
import QuicWorkbench.Proofs.Survival

/-!
# What the network holds

A packet that a node has accepted and that is not handled is in the channel of the node, or has a copy at each of its
candidate links, in the link's queue or in the hands of its task. So a packet that was created and has not ended is in one
of the queues of the network (`accountsFor_of_run`).
-/

namespace QuicWorkbench

/-- The packet is in the channel of a node, waits at a link without having been handled by another one, is in flight, or waits
at a host. -/
inductive State.Holds (net : InMemoryNetwork) (s : State) (id : Uuid) : Prop
  | outbound {i : NodeIx} {b : BufferedPacket} (hi : i < net.nodes.length) (hb : b ∈ (s.nodes i).outbound) (hid : b.data.id = id)
  | copy {j : LinkIx} {c : OutgoingPacket} (hj : j < net.links.length) (hc : c ∈ s.copies j) (hun : s.handled c.stay = false)
      (hid : c.data.id = id)
  | inTransit {j : LinkIx} {e : PrioritizedInTransitData} (hj : j < net.links.length) (he : e ∈ (s.links j).inTransit.queue)
      (hid : e.data.id = id)
  | inbound {i : NodeIx} {e : PrioritizedInTransitData} (hi : i < net.nodes.length) (he : e ∈ (s.nodes i).inbound.queue)
      (hid : e.data.id = id)

/-! ### Tasks of links that have panicked -/

/-- A send that panics takes the task of its link with it, and only links have tasks that can panic. -/
structure PanicsInv (net : InMemoryNetwork) (s : State) : Prop where
  tasks : ∀ j, s.linkTasks j = .panicked → j < net.links.length
  sends : ∀ j p, .sendPanicked j p ∈ s.history → s.linkTasks j = .panicked

namespace PanicsInv
variable {net : InMemoryNetwork} {s s' : State}

theorem frame (h : PanicsInv net s) (htasks : s'.linkTasks = s.linkTasks)
    (hhistory : ∀ j p, .sendPanicked j p ∈ s'.history → .sendPanicked j p ∈ s.history) : PanicsInv net s' where
  tasks j hj := h.tasks j (htasks ▸ hj)
  sends j p hp := htasks ▸ h.sends j p (hhistory j p hp)

theorem effect {σ σ' : Scene} (he : Effect net σ σ') (h : PanicsInv net σ.state) : PanicsInv net σ'.state := by
  refine h.frame he.linkFrame.linkTasks fun j p hp => ?_
  rcases he.quiet_or_stay with hq | hs
  · exact hq.history ▸ hp
  · generalize σ.state = s at hs ⊢
    generalize σ'.state = s' at hs hp
    cases hs with
    | accept i d buffer =>
      have hp : .sendPanicked j p ∈ s.history ++ [.accepted s.nextStay i d] := hp
      simpa using hp
    | acceptInVain i d buffer =>
      have hp : .sendPanicked j p ∈ s.history ++ [.accepted s.nextStay i d] := hp
      simpa using hp
    | offer i packet outbound links =>
      rw [State.pushCopies_eq] at hp
      have hp : .sendPanicked j p ∈ s.history ++ [.offered packet.stay links] := hp
      simpa using hp
    | panicOffer i packet outbound links =>
      rw [State.pushCopies_eq] at hp
      have hp : .sendPanicked j p ∈ s.history ++ [.offered packet.stay links] := hp
      simpa using hp
    | endNodeTask i task => exact hp

theorem linkEffect {j : LinkIx} (hj : j < net.links.length) (he : LinkEffect net j s s') (h : PanicsInv net s) :
    PanicsInv net s' := by
  -- the task has not panicked before, and no other task does now
  have halive : s.linkTasks j ≠ .panicked := by
    cases he with
    | park p s₁ task hp => exact hp.task_ne_panicked
    | discard p p' s₁ hp => exact hp.task_ne_panicked
    | clear p p' s₁ hp => exact hp.task_ne_panicked
    | send p p' s₁ data slot hp => exact hp.task_ne_panicked
    | panicSend p p' s₁ hp => exact hp.task_ne_panicked
  have hne : ∀ j', j' ≠ j → s'.linkTasks j' = s.linkTasks j' := he.frame.linkTasks
  have hold : ∀ j' p, .sendPanicked j' p ∈ s.history → s'.linkTasks j' = .panicked := by
    intro j' p hp
    have hpanicked := h.sends j' p hp
    have hj' : j' ≠ j := by
      rintro rfl
      exact halive hpanicked
    rw [hne j' hj', hpanicked]
  refine ⟨fun j' hj' => ?_, fun j' p hp => ?_⟩
  · by_cases hjj : j' = j
    · exact hjj ▸ hj
    · exact h.tasks j' (hne j' hjj ▸ hj')
  · -- what is new in the history is a panic of this task, if it is one
    cases he with
    | park q s₁ task hpick =>
      obtain ⟨queue, rfl⟩ := hpick.eq_dequeue
      exact hold j' p hp
    | discard q q' s₁ hpick =>
      obtain ⟨queue, rfl⟩ := hpick.eq_dequeue
      have hp : .sendPanicked j' p ∈ s.history ++ [.discarded j q'] := hp
      exact hold j' p (by simpa using hp)
    | clear q q' s₁ hpick =>
      obtain ⟨queue, rfl⟩ := hpick.eq_dequeue
      have hp : .sendPanicked j' p ∈ s.history ++ [.cleared j q'] := hp
      exact hold j' p (by simpa using hp)
    | send q q' s₁ data slot hpick =>
      obtain ⟨queue, rfl⟩ := hpick.eq_dequeue
      have hp : .sendPanicked j' p ∈ s.history ++ [.sent s.now j { q' with data }] := hp
      exact hold j' p (by simpa using hp)
    | panicSend q q' s₁ hpick =>
      obtain ⟨queue, rfl⟩ := hpick.eq_dequeue
      have hp : .sendPanicked j' p ∈ s.history ++ [.sendPanicked j q'] := hp
      rcases List.mem_append.1 hp with hp | hp
      · exact hold j' p hp
      · obtain ⟨rfl, -⟩ := by simpa using hp
        simp [State.panicLinkTask, State.setLinkTask]

theorem event (hf : State.EventFrame s s') (h : PanicsInv net s) : PanicsInv net s' :=
  h.frame hf.linkTasks fun _ _ hp => hf.history ▸ hp

theorem preserved (net : InMemoryNetwork) : Preserved net fun σ => PanicsInv net σ.state where
  effect _ _ he h := effect he h
  link _ _ _ hj he h := linkEffect hj he h
  linkEvent s event h := h.event (s.processLinkEvent_frame net event)
  nodeEvent s event h := h.event (s.processNodeEvent_frame net event)
  events _ _ h := ⟨h.tasks, h.sends⟩

end PanicsInv

/-! ### Where accepted packets are -/

/-- Packets are at nodes of the network only. -/
def InNodes (net : InMemoryNetwork) (_ : Nat) (i : NodeIx) (_ : InTransitData) : Prop := i < net.nodes.length

theorem InNodes.custody {net : InMemoryNetwork} {spec : NetworkSpec} (htables : net.Tables spec) : Custody net (InNodes net) where
  wait _ _ _ _ h _ := h
  cross _ _ _ _ _ _ _ hlinked _ := by
    obtain ⟨j, -, -, -, htarget⟩ := hlinked
    exact (htables.nodesByAddr _ _ htarget).1
  copy _ _ _ _ h := h
  mark _ _ _ _ h := h

/-- What the queues hold of the packets that nodes have accepted. -/
structure KeptInv (net : InMemoryNetwork) (s : State) : Prop where
  copies : CopiesInv net s
  served : ∀ i, Served i s
  offers : OffersLinks s
  panics : PanicsInv net s
  inNodes : InCustody net (InNodes net) ⟨[], s⟩

namespace KeptInv
variable {net : InMemoryNetwork} {spec : NetworkSpec} {s s' s₀ : State} {i : NodeIx} {k : Nat} {d : InTransitData} {p : Place}

theorem of_run {networkEvents : NetworkEvents} {simulationStart start now : Nat} {disableTimeWarping : Bool} {as : List Action}
    (hinit : InMemoryNetwork.initializeNetwork spec networkEvents simulationStart start now disableTimeWarping = .ok (net, s₀))
    (hrun : net.machine.run s₀ as = some s) : KeptInv net s := by
  have htables := InMemoryNetwork.buildNetwork_tables (InMemoryNetwork.initializeNetwork_ok hinit).1
  have hstarted : Started s₀ := .initialized hinit
  have hN := InNodes.custody htables
  have hstays₀ : StaysInv net s₀ := (StaysInv.preserved net).initialized hinit (.initial net _ _)
  constructor
  case copies => exact (CopiesInv.preserved net).run hrun ((CopiesInv.preserved net).initialized hinit (.initial net _ _))
  case served =>
    intro i
    exact ((ChannelEffect.preserved fun s s' _ he h => h.channel he).run hrun
      ⟨hstays₀, fun _ k d hacc => by simp [hstarted.history] at hacc⟩).2
  case offers =>
    refine Machine.run_invariant (M := net.machine) (fun _ _ _ h hstep => InMemoryNetwork.offersLinks_step h hstep) ?_ hrun
    intro k links hk
    simp [hstarted.history] at hk
  case panics =>
    refine (PanicsInv.preserved net).run hrun ((PanicsInv.preserved net).initialized hinit ⟨?_, ?_⟩)
    · simp [InMemoryNetwork.initialState]
    · simp [InMemoryNetwork.initialState]
  case inNodes =>
    have hstep : ∀ t a t', StaysInv net t ∧ InCustody net (InNodes net) ⟨[], t⟩ → net.machine.step t a = some t' →
        StaysInv net t' ∧ InCustody net (InNodes net) ⟨[], t'⟩ := by
      rintro t a t' ⟨hstays, hcustody⟩ hstep
      refine ⟨(StaysInv.preserved net).step hstep hstays,
        hcustody.step hN htables hstays hstep fun i transmit uuid draws endpoint _ hhost => ?_⟩
      exact net.lt_length_of_isSome (by rw [hhost]; rfl)
    have hcustody₀ : InCustody net (InNodes net) ⟨[], s₀⟩ := by
      refine InMemoryNetwork.initializeNetwork_induction (I := fun s => InCustody net (InNodes net) ⟨[], s⟩) hinit
        (.initial net _ _ _) ?_ ?_
      · intro s payload _ hcustody
        exact hcustody.processEvent hN ⟨0, .link payload⟩
      · intro s payload _ hcustody
        exact hcustody.processEvent hN ⟨0, .node payload⟩
    exact (Machine.run_invariant (M := net.machine) hstep ⟨hstays₀, hcustody₀⟩ hrun).2

theorem unhandled (h : KeptInv net s) (hun : s.handled k = false) : k ∉ handledStays s.history := by
  intro hk
  rw [(h.copies.stays.handled k).2 hk] at hun
  exact Bool.noConfusion hun

theorem lt_length (h : KeptInv net s) (hacc : .accepted k i d ∈ s.history) (hun : s.handled k = false) : i < net.nodes.length :=
  h.inNodes.places false (.stay k i) d (.stay hacc (h.unhandled hun))

theorem linkTasks_ne_panicked (h : KeptInv net s) (halive : Alive net s) (j : LinkIx) : s.linkTasks j ≠ .panicked := by
  intro hj
  exact halive.linkTasks j (h.panics.tasks j hj) hj

/-- A packet that is not handled has a copy at each of the links that it may take, and there is one, or waits for the task of
its node. -/
theorem offered_or_waits (h : KeptInv net s) (halive : Alive net s) (hacc : .accepted k i d ∈ s.history)
    (hun : s.handled k = false) :
    (∃ links ≠ [], .offered k links ∈ s.history ∧ net.candidateLinks (net.node i) d.transmit.destination.ip = some links ∧
      ∀ j ∈ links, ∃ c ∈ s.copies j, c.stay = k) ∨ ∃ b ∈ (s.nodes i).outbound, b.stay = k := by
  have hstays := h.copies.stays
  have hi := h.lt_length hacc hun
  rcases h.served i (halive.nodeTasks i hi) k d hacc with hoffered | hwaits
  · left
    obtain ⟨links, hoff⟩ := mem_offeredStays.1 hoffered
    obtain ⟨i', d', hacc', hcandidates⟩ := hstays.offered k links hoff
    obtain ⟨rfl, rfl⟩ := accepted_unique hstays.acceptedNodup hacc hacc'
    refine ⟨links, h.offers k links hoff, hoff, hcandidates, fun j hj => ?_⟩
    have hcount := h.copies.copies (h.linkTasks_ne_panicked halive) k links hoff hun j
    have hpos : 0 < s.copyCount j k := by
      rw [hcount]
      exact List.count_pos_iff.2 hj
    obtain ⟨c, hc, hk⟩ := List.countP_pos_iff.1 hpos
    exact ⟨c, hc, of_decide_eq_true hk⟩
  · exact .inr hwaits

theorem holds (h : KeptInv net s) (htables : net.Tables spec) (halive : Alive net s) (hd : Scene.At ⟨[], s⟩ false p d) :
    s.Holds net d.id := by
  have hstays := h.copies.stays
  cases hd with
  | @inTransit j e he => exact .inTransit (h.inNodes.delays j e he).1 he rfl
  | @inbound i e he => exact .inbound (h.inNodes.places false (.inbound i) e.data (.inbound he)).1 he rfl
  | @stay k i d hacc hk =>
    have hun : s.handled k = false := by
      rw [← Bool.not_eq_true, hstays.handled]
      exact hk
    rcases h.offered_or_waits halive hacc hun with ⟨links, hne, hoff, hcandidates, hcopies⟩ | ⟨b, hb, hstay⟩
    · obtain ⟨j, hj⟩ := List.exists_mem_of_ne_nil _ hne
      obtain ⟨c, hc, rfl⟩ := hcopies j hj
      obtain ⟨-, hdata⟩ := accepted_unique hstays.acceptedNodup hacc (hstays.copy j c hc).1
      exact .copy (htables.of_mem_candidateLinks hcandidates hj).1 hc hun (congrArg InTransitData.id hdata)
    · subst hstay
      obtain ⟨-, hdata⟩ := accepted_unique hstays.acceptedNodup hacc (hstays.outbound i b hb).1
      exact .outbound (h.lt_length hacc hun) hb (congrArg InTransitData.id hdata)

theorem at_of_holds (h : KeptInv net s) {id : Uuid} (hid : s.Holds net id) : ∃ p d, Scene.At ⟨[], s⟩ false p d ∧ d.id = id := by
  have hstays := h.copies.stays
  cases hid with
  | outbound hi hb hid =>
    obtain ⟨hacc, hoff⟩ := hstays.outbound _ _ hb
    exact ⟨_, _, .stay hacc fun hk => hoff (hstays.handledOffered _ hk), hid⟩
  | copy hj hc hun hid => exact ⟨_, _, .stay (hstays.copy _ _ hc).1 (h.unhandled hun), hid⟩
  | inTransit hj he hid => exact ⟨_, _, .inTransit he, hid⟩
  | inbound hi he hid => exact ⟨_, _, .inbound he, hid⟩

end KeptInv

/-! ### Results -/

section
variable {spec : NetworkSpec} {networkEvents : NetworkEvents} {net : InMemoryNetwork} {s₀ s : State}
  {simulationStart start now : Nat} {disableTimeWarping : Bool} {as : List Action}

/-- Each packet that was created is in a queue of the network, or the log tells how it ended; if the ids are distinct, not
both. -/
theorem accountsFor_of_run
    (hinit : InMemoryNetwork.initializeNetwork spec networkEvents simulationStart start now disableTimeWarping = .ok (net, s₀))
    (hnow : simulationStart ≤ now) (hreads : net.machine.Guarded ReadsAll s₀ as) (hrun : net.machine.run s₀ as = some s)
    (halive : Alive net s) :
    (∀ id ∈ s.generated, s.Holds net id ∨ Ended s.log id) ∧
      (s.generated.Nodup → ∀ id, s.Holds net id → ¬ Ended s.log id) := by
  have hbuild := (InMemoryNetwork.initializeNetwork_ok hinit).1
  have htables := InMemoryNetwork.buildNetwork_tables hbuild
  have hstart := (InMemoryNetwork.buildNetwork_start hbuild).1
  have hpreserved := LifeInv.preserved htables
  have hlife := hpreserved.run hrun (hpreserved.initialized hinit (.initial net _ _ (hstart ▸ hnow)))
  have hkept := KeptInv.of_run hinit hrun
  constructor
  · intro id hid
    rcases (SurvivalInv.of_run hinit hreads hrun).accounts halive id hid with ⟨p, d, hd, rfl⟩ | hended
    · exact .inl (hkept.holds htables halive hd)
    · exact .inr hended
  · intro hgen id hholds
    obtain ⟨p, d, hd, rfl⟩ := hkept.at_of_holds hholds
    exact (hlife.lives hgen).2.not_ended hd

end

/-- `A` sends two packets, of which `B` has read one; the other one is in the buffer of `A`. -/
def HostPair.readOneOfTwo : List Action := HostPair.sendToB ++ [.pollRecv 1 32] ++ HostPair.sendFromA 2

theorem accountsFor_hostPair : ∃ net s₀ s, InMemoryNetwork.initializeNetwork (hostPair 8000000 0)
    (.new [] (hostPair 8000000 0).nodes (hostPair 8000000 0).links) 0 0 0 false = .ok (net, s₀) ∧
    net.machine.run s₀ HostPair.readOneOfTwo = some s ∧ s.generated = [1, 2] ∧ Alive net s ∧
    (∀ id ∈ s.generated, s.Holds net id ∨ Ended s.log id) ∧ (s.generated.Nodup → ∀ id, s.Holds net id → ¬ Ended s.log id) := by
  obtain ⟨net, s₀, s, hinit, hreads, hrun, hs⟩ := exists_of_simulateGuarded (hostPair 8000000 0) [] HostPair.readOneOfTwo
    (fun _ s a => ReadsAll s a) (fun net s => decide (s.generated = [1, 2] ∧ Alive net s)) (by decide +kernel)
  obtain ⟨hgenerated, halive⟩ := of_decide_eq_true hs
  exact ⟨net, s₀, s, hinit, hrun, hgenerated, halive, accountsFor_of_run hinit (Nat.le_refl _) hreads hrun halive⟩

end QuicWorkbench
