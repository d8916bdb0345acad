import QuicWorkbench.Proofs.Holdings
import QuicWorkbench.Proofs.Workload

/-!
# What is left at rest

When the tasks have come to rest and none of them has ended, what they leave undone has a reason: the link is still sending,
the link or the node of the packet is down, or the packet is not due yet (`leftOver_of_rest`). Where there is no such reason
anywhere, the network is drained: the packets have ended or wait at the hosts that they were sent to (`drained_of_rest`).
-/

namespace QuicWorkbench

/-- What keeps the link from sending the packet. -/
inductive State.Blocked (s : State) (j : LinkIx) (p : OutgoingPacket) : Prop
  | bandwidth (deadline : Nat) (hlast : (s.links j).pacer.lastSend = some deadline) (hlt : s.now < deadline)
  | link (h : (s.links j).status.isDown)
  | node (h : (s.nodes p.srcNode).isDown)

/-- The link is kept from sending the packet that comes next. -/
def State.Stuck (s : State) (j : LinkIx) : Prop :=
  ∃ p rest, s.copies j = p :: rest ∧ s.handled p.stay = false ∧ s.Blocked j p

/-- What is left undone at rest, and why. -/
structure LeftOver (net : InMemoryNetwork) (s : State) : Prop where
  outbound : ∀ i, (s.nodes i).outbound = []
  copies : ∀ j < net.links.length, s.copies j = [] ∨ s.Stuck j
  /-- a packet that is not handled is stuck on all the links that it may take, and there is one -/
  accepted : ∀ k i d, .accepted k i d ∈ s.history → s.handled k = false → ∃ links ≠ [], .offered k links ∈ s.history ∧
    net.candidateLinks (net.node i) d.transmit.destination.ip = some links ∧
    ∀ j ∈ links, (∃ c ∈ s.copies j, c.stay = k) ∧ s.Stuck j
  inTransit : ∀ j < net.links.length, (s.links j).inTransit.queue = [] ∨ ∃ p ∈ (s.links j).inTransit.queue, s.now < p.arrivalTime

/-- Nothing keeps the links from sending, and what is in flight is due. -/
structure Unobstructed (net : InMemoryNetwork) (s : State) : Prop where
  linksUp : ∀ j < net.links.length, (s.links j).status.isDown = false
  nodesUp : ∀ i < net.nodes.length, (s.nodes i).isDown = false
  paced : ∀ j < net.links.length, (s.links j).pacer.canSend s.now
  due : ∀ j < net.links.length, ∀ p ∈ (s.links j).inTransit.queue, p.arrivalTime ≤ s.now

instance (net : InMemoryNetwork) (s : State) : Decidable (Unobstructed net s) :=
  decidable_of_iff ((∀ j < net.links.length, (s.links j).status.isDown = false) ∧
    (∀ i < net.nodes.length, (s.nodes i).isDown = false) ∧ (∀ j < net.links.length, (s.links j).pacer.canSend s.now) ∧
    ∀ j < net.links.length, ∀ p ∈ (s.links j).inTransit.queue, p.arrivalTime ≤ s.now)
    ⟨fun h => ⟨h.1, h.2.1, h.2.2.1, h.2.2.2⟩, fun h => ⟨h.1, h.2, h.3, h.4⟩⟩

/-- Whatever was created has ended, or has come to the host that it was sent to and waits to be read; and the buffers are
empty, up to the bytes of packets that were dropped by clear-buffer events. -/
structure Drained (net : InMemoryNetwork) (s : State) : Prop where
  packets : ∀ id ∈ s.generated, Ended s.log id ∨ ∃ i, ∃ e ∈ (s.nodes i).inbound.queue, e.data.id = id ∧
    (net.node i).udpEndpoint.any (·.addr = e.data.transmit.destination)
  buffers : ∀ i, (s.nodes i).outboundBuffer.availableCapacityBytes + clearedBytes i s.history = (net.node i).capacityBytes

/-! ### Invariants -/

/-- What the results about tasks at rest need. -/
structure RestInv (net : InMemoryNetwork) (s : State) : Prop extends KeptInv net s where
  buffers : BufferInv net s
  sleeps : SleepsInv s
  timers : TimersInv s

namespace RestInv
variable {net : InMemoryNetwork} {spec : NetworkSpec} {s s₀ : State} {i : NodeIx} {j : LinkIx} {k : Nat} {d : InTransitData}

theorem reaches {events : List NetworkEvent} {disableTimeWarping : Bool} (h : Reaches disableTimeWarping spec events net s) :
    RestInv net s where
  toKeptInv := by
    obtain ⟨simulationStart, start, now, s₀, actions, -, -, hinit, hrun⟩ := h
    exact .of_run hinit hrun
  buffers := (BufferInv.preserved net).reaches (fun now events _ => .initial net now events) h
  sleeps := .reaches h
  timers := .reaches h

/-! ### Reasons -/

theorem stuck_of_waits (h : RestInv net s) (hwaits : s.Waits j) (halive : s.linkTasks j ≠ .panicked) :
    s.copies j = [] ∨ s.Stuck j := by
  have hsleeps := h.sleeps.sleeps j
  have hcopies : s.copies j = (s.linkTasks j).packet?.toList ++ (s.links j).outgoingQueue := rfl
  unfold State.Waits at hwaits
  rw [hcopies]
  unfold State.Stuck
  rw [hcopies]
  cases htask : s.linkTasks j with
  | next =>
    left
    rw [htask] at hwaits
    exact hwaits
  | panicked => exact absurd htask halive
  | yielding packet =>
    rw [htask] at hwaits
    exact absurd hwaits id
  | sleepBandwidth packet deadline =>
    right
    rw [htask] at hwaits hsleeps
    have hlast : (s.links j).pacer.lastSend = some deadline := hsleeps.resolve_left (Nat.not_le.2 hwaits.2)
    exact ⟨packet, _, rfl, hwaits.1, .bandwidth deadline hlast hwaits.2⟩
  | sleepLinkUp packet upRx =>
    right
    rw [htask] at hwaits hsleeps
    have hoff : s.notifierForUp (.link j) = some upRx := hsleeps.resolve_left fun hsent => by
      have hsignalled : s.oneshots.signalled upRx = true := Oneshots.signalled_eq_true.2 hsent
      rw [hwaits.2] at hsignalled
      exact Bool.noConfusion hsignalled
    refine ⟨packet, _, rfl, hwaits.1, .link ?_⟩
    rw [LinkStatus.eq_down hoff]
    rfl
  | sleepNodeUp packet upRx =>
    right
    rw [htask] at hwaits hsleeps
    have hoff : s.notifierForUp (.node packet.srcNode) = some upRx := hsleeps.resolve_left fun hsent => by
      have hsignalled : s.oneshots.signalled upRx = true := Oneshots.signalled_eq_true.2 hsent
      rw [hwaits.2] at hsignalled
      exact Bool.noConfusion hsignalled
    refine ⟨packet, _, rfl, hwaits.1, .node ?_⟩
    rw [NodeState.isDown, NodeStatus.eq_down hoff]

theorem early_of_not_delivers (h : RestInv net s) (hdelivers : s.delivers j = false)
    (halive : (s.forwarders j).hasPanicked = false) :
    (s.links j).inTransit.queue = [] ∨ ∃ p ∈ (s.links j).inTransit.queue, s.now < p.arrivalTime := by
  cases htask : s.forwarders j with
  | panicked => simp [htask, ForwarderTask.hasPanicked] at halive
  | awaiting delivery =>
    obtain ⟨hmax, htimer⟩ := h.timers j delivery htask
    have hpoll := NextPacketDelivery.poll_cases delivery (s.links j).inTransit s.now j hmax
    have hready : (delivery.poll (s.links j).inTransit s.now j).1.isReady = false := by rwa [State.delivers, htask] at hdelivers
    generalize delivery.poll (s.links j).inTransit s.now j = polled at hpoll hready
    cases hpoll with
    | asleep deadline hsleep hlt =>
      obtain ⟨p, hp, harrival⟩ := htimer deadline hsleep
      exact .inr ⟨p, hp, harrival ▸ hlt⟩
    | empty hawake hq => exact .inl hq
    | early hawake p hp hmin hlt => exact .inr ⟨p, hp, hlt⟩
    | ready hawake batch rest sleep hne hdue htimer => exact Bool.noConfusion hready

theorem leftOver (h : RestInv net s) (htables : net.Tables spec) (halive : Alive net s) (hrest : State.AtRest net s) :
    LeftOver net s := by
  have hstays := h.copies.stays
  have houtbound : ∀ i, (s.nodes i).outbound = [] := by
    intro i
    by_contra hne
    obtain ⟨b, hb⟩ := List.exists_mem_of_ne_nil _ hne
    obtain ⟨hacc, hoff⟩ := hstays.outbound i b hb
    have hun : s.handled b.stay = false := by
      rw [← Bool.not_eq_true, hstays.handled]
      exact fun hk => hoff (hstays.handledOffered _ hk)
    have hi := h.lt_length hacc hun
    exact hne (hrest.outbound i hi (halive.nodeTasks i hi))
  have hcopies : ∀ j < net.links.length, s.copies j = [] ∨ s.Stuck j := fun j hj =>
    h.stuck_of_waits (hrest.waits j hj) (h.linkTasks_ne_panicked halive j)
  refine ⟨houtbound, hcopies, fun k i d hacc hun => ?_, fun j hj =>
    h.early_of_not_delivers (hrest.delivers j hj) (halive.forwarders j hj)⟩
  -- the packet was offered, as it is not in the channel any more
  rcases h.offered_or_waits halive hacc hun with ⟨links, hne, hoff, hcandidates, hall⟩ | ⟨b, hb, -⟩
  · refine ⟨links, hne, hoff, hcandidates, fun j hj => ?_⟩
    obtain ⟨c, hc, hk⟩ := hall j hj
    refine ⟨⟨c, hc, hk⟩, (hcopies j (htables.of_mem_candidateLinks hcandidates hj).1).resolve_left ?_⟩
    exact List.ne_nil_of_mem hc
  · rw [houtbound i] at hb
    simp at hb

/-- Without any obstruction, no copy is left, and whatever was accepted is handled. -/
theorem handled_of_unobstructed (h : RestInv net s) (hleft : LeftOver net s) (htables : net.Tables spec)
    (hopen : Unobstructed net s) (hacc : .accepted k i d ∈ s.history) : s.handled k = true := by
  by_contra hun
  have hun : s.handled k = false := by simpa using hun
  obtain ⟨links, hne, hoff, hcandidates, hall⟩ := hleft.accepted k i d hacc hun
  obtain ⟨j, hj⟩ := List.exists_mem_of_ne_nil _ hne
  have hlt := (htables.of_mem_candidateLinks hcandidates hj).1
  obtain ⟨-, p, rest, hcopies, hunhandled, hblocked⟩ := hall j hj
  cases hblocked with
  | bandwidth deadline hlast hnow =>
    have hcan := hopen.paced j hlt
    rw [PacketPacer.canSend, hlast] at hcan
    exact absurd (of_decide_eq_true hcan) (Nat.not_le.2 hnow)
  | link hdown =>
    rw [hopen.linksUp j hlt] at hdown
    exact Bool.noConfusion hdown
  | node hdown =>
    have haccepted := (h.copies.stays.copy j p (hcopies ▸ List.mem_cons_self ..)).1
    rw [hopen.nodesUp p.srcNode (h.lt_length haccepted hunhandled)] at hdown
    exact Bool.noConfusion hdown

/-- What has left the buffer of its node has given its bytes back, unless it was dropped by a clear-buffer event. -/
theorem resident_eq_nil (h : RestInv net s) (halive : Alive net s)
    (hall : ∀ k d, .accepted k i d ∈ s.history → s.handled k = true) : resident i s.history = [] := by
  rw [resident, List.filter_eq_nil_iff]
  rintro ⟨k, d⟩ hx hdeparted
  have hk : k ∈ handledStays s.history := (h.copies.stays.handled k).1 (hall k d (mem_acceptedAt.1 hx))
  obtain ⟨o, ho, hhandles⟩ := List.mem_filterMap.1 hk
  have hne : o.departs ≠ some k := fun heq => of_decide_eq_true hdeparted (List.mem_filterMap.2 ⟨o, ho, heq⟩)
  cases o with
  | sent t j p => exact hne hhandles
  | cleared j p => exact hne hhandles
  | sendPanicked j p =>
    have hpanicked := h.panics.sends j p ho
    exact halive.linkTasks j (h.panics.tasks j hpanicked) hpanicked
  | accepted k i d => simp [Observation.handles] at hhandles
  | offered k links => simp [Observation.handles] at hhandles
  | discarded j p => simp [Observation.handles] at hhandles

end RestInv

/-! ### Results -/

/-- In every state reached in which the tasks are at rest and none has ended, there is a reason for all that is left undone. -/
theorem leftOver_of_rest {spec : NetworkSpec} {events : List NetworkEvent} {net : InMemoryNetwork} {s : State}
    {disableTimeWarping : Bool} (h : Reaches disableTimeWarping spec events net s) (halive : Alive net s)
    (hrest : State.AtRest net s) : LeftOver net s :=
  (RestInv.reaches h).leftOver h.tables halive hrest

/-- At rest, with nothing in the way of the packets, the network is drained. -/
theorem drained_of_rest {spec : NetworkSpec} {events : List NetworkEvent} {net : InMemoryNetwork} {s₀ s : State}
    {simulationStart start now : Nat} {disableTimeWarping : Bool} {as : List Action}
    (hinit : InMemoryNetwork.initializeNetwork spec (.new events spec.nodes spec.links) simulationStart start now
      disableTimeWarping = .ok (net, s₀)) (hnow : simulationStart ≤ now) (hstart : start ≤ now)
    (hreads : net.machine.Guarded ReadsAll s₀ as) (hrun : net.machine.run s₀ as = some s) (halive : Alive net s)
    (hrest : State.AtRest net s) (hopen : Unobstructed net s) : Drained net s := by
  have hreach : Reaches disableTimeWarping spec events net s := ⟨simulationStart, start, now, s₀, as, hnow, hstart, hinit, hrun⟩
  have hinv := RestInv.reaches hreach
  have hleft := hinv.leftOver hreach.tables halive hrest
  have hall : ∀ k i d, .accepted k i d ∈ s.history → s.handled k = true := fun k i d hacc =>
    hinv.handled_of_unobstructed hleft hreach.tables hopen hacc
  constructor
  case packets =>
    intro id hid
    rcases (SurvivalInv.of_run hinit hreads hrun).accounts halive id hid with ⟨p, d, hd, rfl⟩ | hended
    · cases hd with
      | @inTransit j e he =>
        -- it would be due, and handed out
        have hj := (hinv.inNodes.delays j e he).1
        rcases hleft.inTransit j hj with hnil | ⟨p, hp, hlt⟩
        · rw [hnil] at he
          simp at he
        · exact absurd (hopen.due j hj p hp) (Nat.not_le.2 hlt)
      | @inbound i e he => exact .inr ⟨i, e, he, rfl, (hinv.inNodes.places false (.inbound i) e.data (.inbound he)).2⟩
      | stay hacc hun => exact absurd ((hinv.copies.stays.handled _).1 (hall _ _ _ hacc)) hun
    · exact .inl hended
  case buffers =>
    intro i
    have hbalance := hinv.buffers.balance i
    rw [hinv.resident_eq_nil halive (hall · i)] at hbalance
    simpa [bytes] using hbalance

namespace HostPair

/-- `A` sends three packets at once, and both links send one of them. -/
def threeAtOnce : List Action :=
  sendFromA 1 ++ sendFromA 2 ++ sendFromA 3 ++ (List.replicate 5 [.linkTask 0 0, .linkTask 1 0]).flatten

/-- A millisecond later, a link sends the third one, and all of them arrive. -/
def threeArrive : List Action :=
  threeAtOnce ++ [.advance (Duration.fromMillis 1), .linkTask 0 0, .linkTask 1 0, .advance (Duration.fromMillis 5), forward 0,
    forward 1]

end HostPair

theorem leftOver_hostPair : ∃ net s, Reaches false (hostPair 8000000 0) [] net s ∧ Alive net s ∧ State.AtRest net s ∧
    (s.copies 0).length = 1 ∧ (s.links 0).inTransit.queue.length = 1 ∧ LeftOver net s := by
  obtain ⟨net, s, hreach, hs⟩ := exists_reaches_of_simulate (hostPair 8000000 0) [] HostPair.threeAtOnce
    (fun net s => decide (Alive net s ∧ State.AtRest net s ∧ (s.copies 0).length = 1 ∧ (s.links 0).inTransit.queue.length = 1))
    (by decide +kernel)
  obtain ⟨halive, hrest, hcopies, hinTransit⟩ := of_decide_eq_true hs
  exact ⟨net, s, hreach, halive, hrest, hcopies, hinTransit, leftOver_of_rest hreach halive hrest⟩

theorem drained_hostPair : ∃ net s₀ s, InMemoryNetwork.initializeNetwork (hostPair 8000000 0)
    (.new [] (hostPair 8000000 0).nodes (hostPair 8000000 0).links) 0 0 0 false = .ok (net, s₀) ∧
    net.machine.run s₀ HostPair.threeArrive = some s ∧ s.generated = [1, 2, 3] ∧ Alive net s ∧ State.AtRest net s ∧
    Unobstructed net s ∧ Drained net s := by
  obtain ⟨net, s₀, s, hinit, hreads, hrun, hs⟩ := exists_of_simulateGuarded (hostPair 8000000 0) [] HostPair.threeArrive
    (fun _ s a => ReadsAll s a)
    (fun net s => decide (s.generated = [1, 2, 3] ∧ Alive net s ∧ State.AtRest net s ∧ Unobstructed net s)) (by decide +kernel)
  obtain ⟨hgenerated, halive, hrest, hopen⟩ := of_decide_eq_true hs
  exact ⟨net, s₀, s, hinit, hrun, hgenerated, halive, hrest, hopen,
    drained_of_rest hinit (Nat.le_refl _) (Nat.le_refl _) hreads hrun halive hrest hopen⟩

end QuicWorkbench
