import QuicWorkbench.Network.Initialize
import QuicWorkbench.Proofs.Poll

/-!
# What the tasks can do, effect by effect

A stretch of a task is a chain of elementary effects, each with its guard (`Effect`), an iteration of
`process_link_queue` one of `LinkEffect`. Between two effects the running task holds packets in its
local variables: `Scene.held`, the next one to be dealt with first, each with the place it is at.
`step_cases` decomposes the steps of the machine, once; the invariants are proved effect by effect.
-/

namespace QuicWorkbench

/-- Where a packet is. -/
inductive Place
  /-- A host has numbered the packet, which has yet to enter the host's node. -/
  | created (i : NodeIx)
  /-- A node has numbered a duplicate and has yet to introduce it. -/
  | duplicated (i : NodeIx)
  /-- `forward` has it, at the node. -/
  | node (i : NodeIx)
  /-- In the node's outbound buffer, for its stay. -/
  | stay (k : Nat) (i : NodeIx)
  /-- In the inbound queue of the host, or just read from it. -/
  | inbound (i : NodeIx)
  /-- Sent on the link at the instant, and not yet arrived. -/
  | transit (j : LinkIx) (sent : Nat)
  deriving DecidableEq

/-- A state in the middle of a stretch, with the packets that the running task holds. -/
structure Scene where
  held : List (Place × InTransitData)
  state : State

/-- A packet at the place comes to the node next. -/
inductive Place.Enters (net : InMemoryNetwork) (s : State) : Place → NodeIx → Prop
  | created (i : NodeIx) (h : (net.node i).udpEndpoint.isSome) : Enters net s (.created i) i
  | transit (j : LinkIx) (sent : Nat) (i : NodeIx) (hdown : (s.links j).wasDownAfter sent = false)
      (htarget : net.nodesByAddr.lookup (net.link j).target = some i) : Enters net s (.transit j sent) i

def PrioritizedInTransitData.onLink (j : LinkIx) (p : PrioritizedInTransitData) : Place × InTransitData :=
  (.transit j p.sent, p.data)

def PrioritizedInTransitData.atHost (i : NodeIx) (p : PrioritizedInTransitData) : Place × InTransitData :=
  (.inbound i, p.data)

namespace State

/-! ### What an accepted packet changes -/

section
variable (s : State) (i : NodeIx) (buffer : OutboundBuffer) (d : InTransitData) (packet : BufferedPacket) (i' : NodeIx)

theorem inbound_accept : ((s.accept i buffer d).nodes i').inbound = (s.nodes i').inbound := by
  by_cases hi : i' = i <;> simp [accept, observe, setNode, hi]

theorem outbound_accept : ((s.accept i buffer d).nodes i').outbound = (s.nodes i').outbound := by
  by_cases hi : i' = i <;> simp [accept, observe, setNode, hi]

theorem outbound_pushOutbound_accept : (((s.accept i buffer d).pushOutbound i packet).nodes i').outbound =
    (s.nodes i').outbound ++ if i' = i then [packet] else [] := by
  rw [← s.outbound_accept i buffer d i']
  by_cases hi : i' = i <;> simp [pushOutbound, setNode, hi]

theorem inbound_pushOutbound_accept : (((s.accept i buffer d).pushOutbound i packet).nodes i').inbound =
    (s.nodes i').inbound := by
  rw [← s.inbound_accept i buffer d i']
  by_cases hi : i' = i <;> simp [pushOutbound, setNode, hi]

end

/-- The copy of the packet for one of its candidate links. -/
def outgoing (net : InMemoryNetwork) (i : NodeIx) (packet : BufferedPacket) (candidates : List LinkIx) (j : LinkIx)
    (rolls : Roll × Roll) : OutgoingPacket :=
  { inNodeSince := packet.inNodeSince
    srcNode := i
    data := packet.data
    anomalies := generatePacketAnomalies (net.link j) rolls
    preferredLinks := candidates
    stay := packet.stay }

/-- The packet is copied into the queues of the links. -/
def pushCopies (net : InMemoryNetwork) (i : NodeIx) (packet : BufferedPacket) (candidates : List LinkIx) :
    List LinkIx → (Nat → Roll × Roll) → State → State
  | [], _, s => s
  | j :: links, rolls, s =>
    pushCopies net i packet candidates links (fun k => rolls (k + 1))
      (s.pushOutgoing j (outgoing net i packet candidates j (rolls 0)))

/-- The task of the link takes a packet out of its queue. -/
def dequeue (s : State) (j : LinkIx) (queue : List OutgoingPacket) : State :=
  s.setLink j { s.links j with outgoingQueue := queue }

/-- The node's task takes the packet out of the channel, to offer it to the candidate links. -/
def takeOutbound (s : State) (i : NodeIx) (packet : BufferedPacket) (outbound : List BufferedPacket)
    (links : List LinkIx) : State :=
  (s.setNode i { s.nodes i with outbound }).observe (.offered packet.stay links)

end State

/-- The elementary effects of all tasks but `process_link_queue`, and of the clock. -/
inductive Effect (net : InMemoryNetwork) : Scene → Scene → Prop
  | advance (s : State) (duration : Nat) :
      Effect net ⟨[], s⟩ ⟨[], { s with now := s.now + duration }⟩
  /-- A host numbers the packet that its application sends. -/
  | create (h) (s : State) (i : NodeIx) (endpoint : UdpEndpoint) (transmit : OwnedTransmit) (uuid : Uuid)
      (hhost : (net.node i).udpEndpoint = some endpoint) :
      Effect net ⟨h, s⟩ ⟨(.created i, s.inTransitData net i endpoint transmit uuid) :: h,
        { s.newPacketId uuid with nextTransmitNumber := s.nextTransmitNumber + 1 }⟩
  /-- The task that polls drops what it does not hand on. -/
  | abandon (h h') (s : State) (hsub : h'.Sublist h) : Effect net ⟨h, s⟩ ⟨h', s⟩
  | dropOnArrival (h) (s : State) (p : Place) (i : NodeIx) (d : InTransitData) (hp : p.Enters net s i)
      (hdown : (s.nodes i).isDown) :
      Effect net ⟨(p, d) :: h, s⟩ ⟨h, s.trackDroppedOnArrival net i d⟩
  | enter (h) (s : State) (p : Place) (i : NodeIx) (d : InTransitData) (hp : p.Enters net s i)
      (hup : (s.nodes i).isDown = false) :
      Effect net ⟨(p, d) :: h, s⟩ ⟨(.node i, d) :: h, s.trackPacketInNode net i d⟩
  | loseInTransit (h) (s : State) (j : LinkIx) (sent : Nat) (d : InTransitData)
      (hdown : (s.links j).wasDownAfter sent) :
      Effect net ⟨(.transit j sent, d) :: h, s⟩ ⟨h, s.trackLostInTransit net j d⟩
  | sendInbound (h) (s : State) (i : NodeIx) (d : InTransitData) (slot : Nat)
      (hhere : (net.node i).udpEndpoint.any (·.addr = d.transmit.destination)) :
      Effect net ⟨(.node i, d) :: h, s⟩ ⟨h, s.sendInbound i d slot⟩
  | dropRandomly (h) (s : State) (i : NodeIx) (d : InTransitData) :
      Effect net ⟨(.node i, d) :: h, s⟩ ⟨h, s.trackDroppedRandomly net i d⟩
  | duplicate (h) (s : State) (i : NodeIx) (d : InTransitData) (uuid : Uuid) :
      Effect net ⟨(.node i, d) :: h, s⟩
        ⟨(.node i, d) :: (.duplicated i, { d with id := uuid, duplicate := true }) :: h, s.newPacketId uuid⟩
  | introduce (h) (s : State) (i : NodeIx) (d : InTransitData) :
      Effect net ⟨(.duplicated i, d) :: h, s⟩
        ⟨(.node i, d) :: h, s.record net (.packetDuplicated (State.genericPacketEvent net i d))⟩
  | dropBecauseBufferFull (h) (s : State) (i : NodeIx) (d : InTransitData)
      (hbuffer : (s.nodes i).outboundBuffer.reserve d.packetSize = none) :
      Effect net ⟨(.node i, d) :: h, s⟩ ⟨h, s.trackDroppedBecauseBufferFull net i d⟩
  | accept (h) (s : State) (i : NodeIx) (d : InTransitData) (buffer : OutboundBuffer)
      (hbuffer : (s.nodes i).outboundBuffer.reserve d.packetSize = some buffer) (htask : s.nodeTasks i = .running) :
      Effect net ⟨(.node i, d) :: h, s⟩
        ⟨h, (s.accept i buffer d).pushOutbound i { inNodeSince := s.now, data := d, stay := s.nextStay }⟩
  /-- The bytes are reserved, but nobody receives from the channel. -/
  | acceptInVain (h) (s : State) (i : NodeIx) (d : InTransitData) (buffer : OutboundBuffer)
      (hbuffer : (s.nodes i).outboundBuffer.reserve d.packetSize = some buffer) (htask : s.nodeTasks i ≠ .running) :
      Effect net ⟨(.node i, d) :: h, s⟩ ⟨h, s.accept i buffer d⟩
  /-- The forwarder of the link polls its delivery. -/
  | takeInTransit (h) (s : State) (j : LinkIx) (q : InboundQueue) (delivery : NextPacketDelivery)
      (batch : List PrioritizedInTransitData) (htask : s.forwarders j ≠ .panicked)
      (hperm : (s.links j).inTransit.queue.Perm (batch ++ q.queue)) (hdue : ∀ p ∈ batch, p.arrivalTime ≤ s.now) :
      Effect net ⟨h, s⟩
        ⟨batch.map (·.onLink j) ++ h, (s.setInTransit j q).setForwarder j (.awaiting delivery)⟩
  | panicForwarder (h) (s : State) (j : LinkIx) : Effect net ⟨h, s⟩ ⟨h, s.setForwarder j .panicked⟩
  /-- The socket of the host polls its delivery. -/
  | takeInbound (h) (s : State) (i : NodeIx) (q : InboundQueue) (delivery : NextPacketDelivery)
      (batch : List PrioritizedInTransitData)
      (hperm : (s.nodes i).inbound.queue.Perm (batch ++ q.queue)) :
      Effect net ⟨h, s⟩ ⟨batch.map (·.atHost i) ++ h,
        { s.setNode i { s.nodes i with inbound := q } with sockets := Function.update s.sockets i (some delivery) }⟩
  | read (h) (s : State) (i : NodeIx) (d : InTransitData) :
      Effect net ⟨(.inbound i, d) :: h, s⟩ ⟨h, s.trackReadByHost net i d⟩
  | offer (h) (s : State) (i : NodeIx) (packet : BufferedPacket) (outbound : List BufferedPacket)
      (links : List LinkIx) (rolls : Nat → Roll × Roll) (htask : s.nodeTasks i = .running)
      (hnext : (s.nodes i).outbound = packet :: outbound)
      (hlinks : net.candidateLinks (net.node i) packet.data.transmit.destination.ip = some links)
      (hall : ∀ j ∈ links, s.linkTasks j ≠ .panicked) :
      Effect net ⟨h, s⟩
        ⟨h, State.pushCopies net i packet links links rolls (s.takeOutbound i packet outbound links)⟩
  /-- A link task has panicked, and with it the node's task does. -/
  | panicOffer (h) (s : State) (i : NodeIx) (packet : BufferedPacket) (outbound : List BufferedPacket)
      (links done rest : List LinkIx) (j : LinkIx) (rolls : Nat → Roll × Roll) (htask : s.nodeTasks i = .running)
      (hnext : (s.nodes i).outbound = packet :: outbound)
      (hlinks : net.candidateLinks (net.node i) packet.data.transmit.destination.ip = some links)
      (hsplit : links = done ++ j :: rest) (hpanicked : s.linkTasks j = .panicked) :
      Effect net ⟨h, s⟩ ⟨h, (State.pushCopies net i packet links done rolls
        (s.takeOutbound i packet outbound links)).endNodeTask i .panicked⟩
  | endNodeTask (h) (s : State) (i : NodeIx) (task : NodeTask) (htask : s.nodeTasks i = .running)
      (hend : task ≠ .running) : Effect net ⟨h, s⟩ ⟨h, s.endNodeTask i task⟩

/-- The task of the link goes on with the packet `p`, in the state `s₁` (the queue without the packet, if
the task takes it from there), and moves by `m`. -/
inductive Picks (j : LinkIx) (s : State) (p : OutgoingPacket) (s₁ : State) (m : State.Move) : Prop
  | take (queue : List OutgoingPacket) (htask : s.linkTasks j = .next)
      (hqueue : (s.links j).outgoingQueue = p :: queue) (hs : s₁ = s.dequeue j queue) (hm : m = s₁.takePacket j p)
  | resume (hs : s₁ = s) (htask : (s.linkTasks j).packet? = some p)
      (hm : s.resume j (s.linkTasks j) = some m)

/-- The iterations of `process_link_queue`. -/
inductive LinkEffect (net : InMemoryNetwork) (j : LinkIx) (s : State) : State → Prop
  | park (p : OutgoingPacket) (s₁ : State) (task : LinkTask) (h : Picks j s p s₁ (.await task)) :
      LinkEffect net j s (s₁.setLinkTask j task)
  | discard (p p' : OutgoingPacket) (s₁ : State) (h : Picks j s p s₁ (.ready p')) (hhandled : s.handled p.stay) :
      LinkEffect net j s ((s₁.observe (.discarded j p')).setLinkTask j .next)
  | clear (p p' : OutgoingPacket) (s₁ : State) (h : Picks j s p s₁ (.ready p'))
      (hhandled : s.handled p.stay = false) (hcleared : s.clearedFromBuffer p) :
      LinkEffect net j s ((((s₁.setHandled p.stay).trackDroppedByBufferClearEvent net p'.srcNode p'.data).observe
        (.cleared j p')).setLinkTask j .next)
  | send (p p' : OutgoingPacket) (s₁ : State) (data : InTransitData) (slot : Nat) (h : Picks j s p s₁ (.ready p'))
      (hhandled : s.handled p.stay = false) (hcleared : s.clearedFromBuffer p = false)
      (hsane : (s₁.setHandled p.stay).sanityChecks j)
      (hdata : NetworkLink.applyCongestion p'.anomalies p'.data = some data) :
      LinkEffect net j s (((s₁.setHandled p.stay).transmit net j { p' with data } slot).setLinkTask j .next)
  | panicSend (p p' : OutgoingPacket) (s₁ : State) (h : Picks j s p s₁ (.ready p'))
      (hhandled : s.handled p.stay = false) (hcleared : s.clearedFromBuffer p = false)
      (hpanic : (s₁.setHandled p.stay).sanityChecks j = false ∨
        NetworkLink.applyCongestion p'.anomalies p'.data = none) :
      LinkEffect net j s (((s₁.setHandled p.stay).observe (.sendPanicked j p')).panicLinkTask j)

/-- A congestion mark is in the ECN bits of the packet, and changes nothing else. -/
theorem exists_ecn_of_applyCongestion {anomalies : PacketAnomalies} {d d' : InTransitData}
    (h : NetworkLink.applyCongestion anomalies d = some d') :
    ∃ ecn, d' = { d with transmit := { d.transmit with ecn } } := by
  unfold NetworkLink.applyCongestion at h
  split_ifs at h
  · exact ⟨some .ce, (Option.some.inj h).symm⟩
  · exact ⟨d.transmit.ecn, (Option.some.inj h).symm⟩

theorem id_applyCongestion {anomalies : PacketAnomalies} {d d' : InTransitData}
    (h : NetworkLink.applyCongestion anomalies d = some d') : d'.id = d.id := by
  obtain ⟨ecn, rfl⟩ := exists_ecn_of_applyCongestion h
  rfl

theorem packetSize_applyCongestion {anomalies : PacketAnomalies} {d d' : InTransitData}
    (h : NetworkLink.applyCongestion anomalies d = some d') : d'.packetSize = d.packetSize := by
  obtain ⟨ecn, rfl⟩ := exists_ecn_of_applyCongestion h
  rfl

/-! ### Decomposition -/

abbrev Effects (net : InMemoryNetwork) : Scene → Scene → Prop := Relation.ReflTransGen (Effect net)

/-- The task has yet to find out what becomes of the packet at the node. -/
def Place.atNode : Place → Option NodeIx
  | .node i | .inbound i => some i
  | .created _ | .duplicated _ | .stay .. | .transit .. => none

/-- An effect at one instant that forgets no packet that is at a node, and makes no packet. -/
structure Keeps (net : InMemoryNetwork) (σ σ' : Scene) : Prop where
  effect : Effect net σ σ'
  now : σ'.state.now = σ.state.now
  kept : σ'.state = σ.state → ∀ x ∈ σ.held, x.1.atNode.isSome → x ∈ σ'.held
  uncreated : ∀ i d, (.created i, d) ∈ σ'.held → (.created i, d) ∈ σ.held

/-- Most chains of effects keep the packets that are at nodes. -/
abbrev KeepingEffects (net : InMemoryNetwork) : Scene → Scene → Prop := Relation.ReflTransGen (Keeps net)

theorem KeepingEffects.effects {net : InMemoryNetwork} {σ σ' : Scene} (h : KeepingEffects net σ σ') : Effects net σ σ' :=
  Relation.ReflTransGen.mono (fun _ _ hkeeps => Keeps.effect hkeeps) _ _ h

theorem Place.Enters.atNode {net : InMemoryNetwork} {s : State} {p : Place} {i : NodeIx} (h : p.Enters net s i) :
    p.atNode = none := by
  cases h <;> rfl

namespace Keeps
variable {net : InMemoryNetwork} {s s' : State} {x : Place × InTransitData} {h h' : List (Place × InTransitData)} {p p' : Place}
  {d d' : InTransitData}

theorem consume (he : Effect net ⟨x :: h, s⟩ ⟨h, s'⟩) (hne : s' ≠ s) (hnow : s'.now = s.now) :
    Keeps net ⟨x :: h, s⟩ ⟨h, s'⟩ where
  effect := he
  now := hnow
  kept heq := absurd heq hne
  uncreated _ _ hmem := List.mem_cons_of_mem _ hmem

theorem toNode {i : NodeIx} (he : Effect net ⟨(p, d) :: h, s⟩ ⟨(.node i, d) :: h, s'⟩) (hp : p.atNode = none)
    (hnow : s'.now = s.now) : Keeps net ⟨(p, d) :: h, s⟩ ⟨(.node i, d) :: h, s'⟩ where
  effect := he
  now := hnow
  kept _ x hx hnode := by
    rcases List.mem_cons.1 hx with rfl | hx
    · simp [hp] at hnode
    · exact List.mem_cons_of_mem _ hx
  uncreated i' d' hmem := by
    rcases List.mem_cons.1 hmem with heq | hmem
    · simp at heq
    · exact List.mem_cons_of_mem _ hmem

theorem duplicate (h : List (Place × InTransitData)) (s : State) (i : NodeIx) (d : InTransitData) (uuid : Uuid) :
    Keeps net ⟨(.node i, d) :: h, s⟩
      ⟨(.node i, d) :: (.duplicated i, { d with id := uuid, duplicate := true }) :: h, s.newPacketId uuid⟩ where
  effect := .duplicate h s i d uuid
  now := rfl
  kept _ x hx _ := by
    rcases List.mem_cons.1 hx with rfl | hx
    · exact List.mem_cons_self ..
    · exact List.mem_cons_of_mem _ (List.mem_cons_of_mem _ hx)
  uncreated i' d' hmem := by simpa using hmem

theorem abandon (s : State) (hsub : h'.Sublist h) (hh : ∀ x ∈ h, x.1.atNode.isSome → x ∈ h') :
    Keeps net ⟨h, s⟩ ⟨h', s⟩ where
  effect := .abandon h h' s hsub
  now := rfl
  kept _ := hh
  uncreated _ _ hmem := hsub.subset hmem

theorem same (he : Effect net ⟨h, s⟩ ⟨h, s'⟩) (hnow : s'.now = s.now) : Keeps net ⟨h, s⟩ ⟨h, s'⟩ where
  effect := he
  now := hnow
  kept _ _ hx _ := hx
  uncreated _ _ hmem := hmem

theorem takeUp (he : Effect net ⟨h, s⟩ ⟨h' ++ h, s'⟩) (hh : ∀ i d, (.created i, d) ∉ h') (hnow : s'.now = s.now) :
    Keeps net ⟨h, s⟩ ⟨h' ++ h, s'⟩ where
  effect := he
  now := hnow
  kept _ _ hx _ := List.mem_append_right _ hx
  uncreated i d hmem := (List.mem_append.1 hmem).resolve_left (hh i d)

end Keeps

namespace State
variable {net : InMemoryNetwork} {s : State}

@[simp] theorem settled_ok (s : State) : settled (.ok s) = s := rfl

@[simp] theorem settled_error (s : State) : settled (.error s) = s := rfl

theorem now_settled_enqueueOutbound (net : InMemoryNetwork) (s : State) (i : NodeIx) (t : Nat) (d : InTransitData) :
    (settled (s.enqueueOutbound net i t d)).now = s.now := by
  unfold enqueueOutbound
  split
  · dsimp only
    split <;> rfl
  · rfl

theorem trackInjectedFailures_duplicate (i : NodeIx) (d : InTransitData) :
    s.trackInjectedFailures net i d true 0 false = s.record net (.packetDuplicated (genericPacketEvent net i d)) := by
  simp [trackInjectedFailures]

theorem record_ne (net : InMemoryNetwork) (s : State) (kind : SimulationStepKind) : s.record net kind ≠ s := fun heq => by
  have hlog : s.log ++ _ = s.log := congrArg State.log heq
  simp at hlog

theorem ne_of_nextStay {s' : State} (h : s'.nextStay = s.nextStay + 1) : s' ≠ s := by
  rintro rfl
  omega

theorem sendInbound_ne (s : State) (i : NodeIx) (d : InTransitData) (slot : Nat) : s.sendInbound i d slot ≠ s := by
  intro heq
  have hlen : ((s.sendInbound i d slot).nodes i).inbound.queue.length = (s.nodes i).inbound.queue.length := by rw [heq]
  simp only [sendInbound, setNode, Function.update_self, InboundQueue.send, MaxHeap.length_push] at hlen
  omega

theorem enqueueOutbound_effects (net : InMemoryNetwork) (s : State) (h : List (Place × InTransitData)) (i : NodeIx)
    (d : InTransitData) :
    KeepingEffects net ⟨(.node i, d) :: h, s⟩ ⟨h, settled (s.enqueueOutbound net i s.now d)⟩ := by
  unfold enqueueOutbound
  cases hbuffer : (s.nodes i).outboundBuffer.reserve d.packetSize with
  | none => exact .single (.consume (.dropBecauseBufferFull h s i d hbuffer) (record_ne net s _) rfl)
  | some buffer =>
    dsimp only
    split
    · rename_i htask
      exact .single (.consume (.accept h s i d buffer hbuffer htask) (ne_of_nextStay rfl) rfl)
    · rename_i htask
      exact .single (.consume (.acceptInVain h s i d buffer hbuffer htask) (ne_of_nextStay rfl) rfl)

theorem forward_effects (h : List (Place × InTransitData)) {p : Place} {i : NodeIx} (d : InTransitData)
    (draws : Draws) (hp : p.Enters net s i) :
    KeepingEffects net ⟨(p, d) :: h, s⟩ ⟨h, settled (s.forward net i d draws)⟩ := by
  unfold forward
  by_cases hdown : (s.nodes i).isDown
  · rw [if_pos hdown]
    exact .single (.consume (.dropOnArrival h s p i d hp hdown) (record_ne net s _) rfl)
  rw [if_neg hdown]
  refine .head (.toNode (.enter h s p i d hp (by simpa using hdown)) hp.atNode rfl) ?_
  dsimp only
  split_ifs with hhere hloss hdup
  · exact .single (.consume (.sendInbound h _ i d draws.slot hhere) (sendInbound_ne _ i d draws.slot) rfl)
  · exact .single (.consume (.dropRandomly h _ i d) (record_ne net _ _) rfl)
  · refine .head (.duplicate h _ i d draws.uuid) ?_
    have hfirst := enqueueOutbound_effects net ((s.trackPacketInNode net i d).newPacketId draws.uuid)
      ((.duplicated i, { d with id := draws.uuid, duplicate := true }) :: h) i d
    have hnow := now_settled_enqueueOutbound net ((s.trackPacketInNode net i d).newPacketId draws.uuid) i
      (s.trackPacketInNode net i d).now d
    refine hfirst.trans ?_
    revert hnow
    show _ → KeepingEffects net ⟨_, settled (enqueueOutbound net _ i (s.trackPacketInNode net i d).now d)⟩ _
    cases enqueueOutbound net ((s.trackPacketInNode net i d).newPacketId draws.uuid) i
      (s.trackPacketInNode net i d).now d with
    | error s' =>
      refine fun _ => .single (.abandon s' (List.sublist_cons_self ..) fun x hx hnode => ?_)
      rcases List.mem_cons.1 hx with rfl | hx
      · simp [Place.atNode] at hnode
      · exact hx
    | ok s' =>
      intro hnow
      refine .head (.toNode (.introduce h s' i { d with id := draws.uuid, duplicate := true }) rfl rfl) ?_
      rw [← trackInjectedFailures_duplicate]
      have hsecond := enqueueOutbound_effects net
        (s'.trackInjectedFailures net i { d with id := draws.uuid, duplicate := true } true 0 false) h i
        { d with id := draws.uuid, duplicate := true }
      rw [trackInjectedFailures_duplicate] at hsecond ⊢
      have hnow' : (s'.record net (.packetDuplicated (genericPacketEvent net i
          { d with id := draws.uuid, duplicate := true }))).now = (s.trackPacketInNode net i d).now := hnow
      rw [hnow'] at hsecond
      simpa [Bind.bind, Except.bind, trackInjectedFailures_duplicate] using hsecond
  · exact enqueueOutbound_effects net _ h i d

theorem forwardDelivered_effects (net : InMemoryNetwork) (j : LinkIx) (delivered : List DeliveredTransmit)
    (draws : Nat → Draws) (s : State) :
    KeepingEffects net ⟨delivered.map (fun x => (.transit j x.sent, x.data)), s⟩
      ⟨[], settled (forwardDelivered net j delivered draws s)⟩ := by
  induction delivered generalizing draws s with
  | nil => exact .refl
  | cons x delivered ih =>
    rw [List.map_cons, forwardDelivered]
    split_ifs with hdown
    · exact .head (.consume (.loseInTransit _ s j x.sent x.data hdown) (record_ne net s _) rfl) (ih _ _)
    cases htarget : net.nodesByAddr.lookup (net.link j).target with
    | none => exact .single (.abandon s (List.nil_sublist _) (by simp [Place.atNode]))
    | some i =>
      refine (forward_effects _ x.data (draws 0) (.transit j x.sent i (by simpa using hdown) htarget)).trans ?_
      dsimp only
      cases s.forward net i x.data (draws 0) with
      | error s' => exact .single (.abandon s' (List.nil_sublist _) (by simp [Place.atNode]))
      | ok s' => exact ih _ s'

theorem exists_of_forwardPacketsFromLinkToNode {j : LinkIx} {draws : Nat → Draws} {s' : State}
    (h : s.forwardPacketsFromLinkToNode net j draws = some s') :
    ∃ q, (∃ delivery, s' = (s.setInTransit j q).setForwarder j (.awaiting delivery)) ∨
      ∃ delivered result, forwardDelivered net j delivered draws
          ((s.setInTransit j q).setForwarder j (.awaiting (.new usizeMax))) = result ∧
        (result = .ok s' ∨ ∃ s₁, result = .error s₁ ∧ s' = s₁.setForwarder j .panicked) := by
  unfold forwardPacketsFromLinkToNode at h
  split at h
  · simp at h
  · split at h
    · exact ⟨_, .inl ⟨_, (Option.some.inj h).symm⟩⟩
    · rename_i delivered delivery q _
      refine ⟨q, .inr ⟨delivered, _, rfl, ?_⟩⟩
      dsimp only at h
      split at h
      · rename_i heq
        obtain rfl := Option.some.inj h
        exact .inl heq
      · rename_i heq
        exact .inr ⟨_, heq, (Option.some.inj h).symm⟩

theorem forwardPacketsFromLinkToNode_effects {j : LinkIx} {draws : Nat → Draws} {s' : State}
    (h : s.forwardPacketsFromLinkToNode net j draws = some s') : KeepingEffects net ⟨[], s⟩ ⟨[], s'⟩ := by
  unfold forwardPacketsFromLinkToNode at h
  cases htask : s.forwarders j with
  | panicked => simp [htask] at h
  | awaiting delivery =>
    obtain ⟨batch, hperm, hdue, -, -, -, hresult⟩ := delivery.poll_takes (s.links j).inTransit s.now j
    simp only [htask] at h
    generalize delivery.poll (s.links j).inTransit s.now j = result at h hperm hdue hresult
    obtain ⟨result, delivery', q⟩ := result
    have htask : s.forwarders j ≠ .panicked := by simp [htask]
    rcases hresult with ⟨source, hpending, hbatch⟩ | ⟨-, hready⟩
    · subst hpending hbatch
      obtain rfl := Option.some.inj h
      exact .single (.takeUp (.takeInTransit [] s j q delivery' [] htask hperm hdue) (by simp) rfl)
    · obtain rfl : result = .ready (batch.map PrioritizedInTransitData.deliver) := hready
      refine .head (.takeUp (.takeInTransit [] s j q (.new usizeMax) batch htask hperm hdue)
        (by simp [PrioritizedInTransitData.onLink]) rfl) ?_
      have hbatch := forwardDelivered_effects net j (batch.map PrioritizedInTransitData.deliver)
        draws ((s.setInTransit j q).setForwarder j (.awaiting (.new usizeMax)))
      rw [List.map_map] at hbatch
      rw [List.append_nil]
      refine .trans hbatch ?_
      simp only at h
      split at h
      · rename_i heq
        obtain rfl := Option.some.inj h
        rw [heq]
        exact .refl
      · rename_i heq
        obtain rfl := Option.some.inj h
        rw [heq]
        exact .single (.same (.panicForwarder [] _ j) rfl)

theorem now_pushCopies {i : NodeIx} {packet : BufferedPacket} {candidates links : List LinkIx} {rolls : Nat → Roll × Roll} :
    (pushCopies net i packet candidates links rolls s).now = s.now := by
  induction links generalizing rolls s with
  | nil => rfl
  | cons j links ih => rw [pushCopies, ih]; rfl

theorem offer_cases (net : InMemoryNetwork) (i : NodeIx) (packet : BufferedPacket) (candidates links : List LinkIx)
    (rolls : Nat → Roll × Roll) (s : State) :
    ((∀ j ∈ links, s.linkTasks j ≠ .panicked) ∧
      offer net i packet candidates links rolls s = .ok (pushCopies net i packet candidates links rolls s)) ∨
    ∃ done j rest, links = done ++ j :: rest ∧ s.linkTasks j = .panicked ∧
      offer net i packet candidates links rolls s = .error (pushCopies net i packet candidates done rolls s) := by
  induction links generalizing rolls s with
  | nil => exact .inl ⟨by simp, rfl⟩
  | cons j links ih =>
    rw [offer]
    by_cases hpanicked : s.linkTasks j = .panicked
    · exact .inr ⟨[], j, links, rfl, hpanicked, by simp [hpanicked, pushCopies]⟩
    rw [if_neg hpanicked]
    rcases ih (fun k => rolls (k + 1)) (s.pushOutgoing j (outgoing net i packet candidates j (rolls 0)))
      with ⟨hall, heq⟩ | ⟨done, j', rest, rfl, hj', heq⟩
    · exact .inl ⟨List.forall_mem_cons.2 ⟨hpanicked, hall⟩, heq⟩
    · exact .inr ⟨j :: done, j', rest, rfl, hj', heq⟩

theorem endNodeTask_setNode (i : NodeIx) (task : NodeTask) (outbound : List BufferedPacket) :
    (s.setNode i { s.nodes i with outbound }).endNodeTask i task = s.endNodeTask i task := by
  simp [endNodeTask, setNode, setNodeTask]

/-- What the task of the node makes of the next packet of the channel. -/
inductive TakeEffect (net : InMemoryNetwork) (i : NodeIx) (rolls : Nat → Roll × Roll) (packet : BufferedPacket)
    (outbound : List BufferedPacket) (s : State) : State → Prop
  | panic (h : net.hasRouteTo (net.node i) packet.data.transmit.destination.ip = none ∨
      net.candidateLinks (net.node i) packet.data.transmit.destination.ip = none) :
      TakeEffect net i rolls packet outbound s (s.endNodeTask i .panicked)
  | unroutable (h : net.hasRouteTo (net.node i) packet.data.transmit.destination.ip = some false) :
      TakeEffect net i rolls packet outbound s (s.endNodeTask i .returned)
  | offer (links : List LinkIx) (hroute : net.hasRouteTo (net.node i) packet.data.transmit.destination.ip = some true)
      (hlinks : net.candidateLinks (net.node i) packet.data.transmit.destination.ip = some links)
      (hall : ∀ j ∈ links, s.linkTasks j ≠ .panicked) :
      TakeEffect net i rolls packet outbound s (pushCopies net i packet links links rolls (s.takeOutbound i packet outbound links))
  | panicOffer (links done rest : List LinkIx) (j : LinkIx)
      (hroute : net.hasRouteTo (net.node i) packet.data.transmit.destination.ip = some true)
      (hlinks : net.candidateLinks (net.node i) packet.data.transmit.destination.ip = some links)
      (hsplit : links = done ++ j :: rest) (hpanicked : s.linkTasks j = .panicked) :
      TakeEffect net i rolls packet outbound s
        ((pushCopies net i packet links done rolls (s.takeOutbound i packet outbound links)).endNodeTask i .panicked)

theorem processBufferForNode_takes {i : NodeIx} {rolls : Nat → Roll × Roll} {s' : State}
    (h : s.processBufferForNode net i rolls = some s') : ∃ packet outbound, s.nodeTasks i = .running ∧
      (s.nodes i).outbound = packet :: outbound ∧ TakeEffect net i rolls packet outbound s s' := by
  unfold processBufferForNode at h
  split at h
  · rename_i packet outbound htask hnext
    refine ⟨packet, outbound, htask, hnext, ?_⟩
    dsimp only at h
    split at h
    · rename_i hroute
      obtain rfl := Option.some.inj h
      rw [endNodeTask_setNode]
      exact .panic (.inl hroute)
    · rename_i hroute
      obtain rfl := Option.some.inj h
      rw [endNodeTask_setNode]
      exact .unroutable hroute
    rename_i hroute
    split at h
    · rename_i hlinks
      obtain rfl := Option.some.inj h
      rw [endNodeTask_setNode]
      exact .panic (.inr hlinks)
    · rename_i links hlinks
      rcases offer_cases net i packet links links rolls (s.takeOutbound i packet outbound links)
        with ⟨hall, heq⟩ | ⟨done, j, rest, hsplit, hj, heq⟩
      · have heq' := heq
        simp only [takeOutbound] at heq'
        rw [heq'] at h
        obtain rfl := Option.some.inj h
        exact .offer links hroute hlinks hall
      · have heq' := heq
        simp only [takeOutbound] at heq'
        rw [heq'] at h
        obtain rfl := Option.some.inj h
        exact .panicOffer links done rest j hroute hlinks hsplit hj
  · simp at h

theorem processBufferForNode_effects {i : NodeIx} {rolls : Nat → Roll × Roll} {s' : State}
    (h : s.processBufferForNode net i rolls = some s') : KeepingEffects net ⟨[], s⟩ ⟨[], s'⟩ := by
  obtain ⟨packet, outbound, htask, hnext, htakes⟩ := processBufferForNode_takes h
  cases htakes with
  | panic => exact .single (.same (.endNodeTask [] s i .panicked htask (by simp)) rfl)
  | unroutable => exact .single (.same (.endNodeTask [] s i .returned htask (by simp)) rfl)
  | offer links _ hlinks hall =>
    exact .single (.same (.offer [] s i packet outbound links rolls htask hnext hlinks hall) now_pushCopies)
  | panicOffer links done rest j _ hlinks hsplit hj =>
    exact .single (.same (.panicOffer [] s i packet outbound links done rest j rolls htask hnext hlinks hsplit hj) now_pushCopies)

/-- The state after the host has numbered the packet. -/
def create (s : State) (uuid : Uuid) : State :=
  { s.newPacketId uuid with nextTransmitNumber := s.nextTransmitNumber + 1 }

theorem trySend_effects {i : NodeIx} {transmit : OwnedTransmit} {uuid : Uuid} {draws : Draws} {s' : State}
    (h : s.trySend net i transmit uuid draws = some s') : ∃ endpoint, (net.node i).udpEndpoint = some endpoint ∧
      KeepingEffects net ⟨[(.created i, s.inTransitData net i endpoint transmit uuid)], s.create uuid⟩ ⟨[], s'⟩ := by
  unfold trySend at h
  split at h
  · simp at h
  · rename_i endpoint hhost
    split at h
    · simp at h
    · obtain rfl := Option.some.inj h
      exact ⟨endpoint, hhost, forward_effects [] _ draws (.created i (by simp [hhost]))⟩

theorem read_effects {i : NodeIx} (h : List (Place × InTransitData)) (read : List DeliveredTransmit) (s : State) :
    KeepingEffects net ⟨read.map (fun x => (.inbound i, x.data)) ++ h, s⟩
      ⟨h, read.foldl (fun s x => s.trackReadByHost net i x.data) s⟩ := by
  induction read generalizing s with
  | nil => exact .refl
  | cons x read ih => exact .head (.consume (.read _ s i x.data) (record_ne net s _) rfl) (ih _)

theorem foldl_trackReadByHost (net : InMemoryNetwork) (i : NodeIx) (read : List DeliveredTransmit) (s : State) :
    read.foldl (fun s x => s.trackReadByHost net i x.data) s = { s with
      log := s.log ++ read.map fun x =>
        ⟨s.now - net.simulationStart, .packetDeliveredToApplication (genericPacketEvent net i x.data)⟩ } := by
  induction read generalizing s with
  | nil => simp
  | cons x read ih =>
    rw [List.foldl_cons, ih]
    simp [trackReadByHost, record]

theorem exists_of_pollRecv {i : NodeIx} {metaLen : Nat} {s' : State} (h : s.pollRecv net i metaLen = some s') :
    ∃ q delivery, ∃ read : List DeliveredTransmit, s' = { s.setNode i { s.nodes i with inbound := q } with
      sockets := Function.update s.sockets i (some delivery)
      log := s.log ++ read.map fun x =>
        ⟨s.now - net.simulationStart, .packetDeliveredToApplication (genericPacketEvent net i x.data)⟩ } := by
  unfold pollRecv at h
  split at h
  · simp at h
  · dsimp only at h
    split at h
    · rename_i delivery q _
      obtain rfl := Option.some.inj h
      exact ⟨q, delivery, [], by rw [List.map_nil, List.append_nil]; rfl⟩
    · rename_i delivered delivery q _
      obtain rfl := Option.some.inj h
      exact ⟨q, delivery, delivered.take metaLen, foldl_trackReadByHost ..⟩

/-- What the poll hands out beyond the slots is left over. -/
theorem pollRecv_effects {i : NodeIx} {metaLen : Nat} {s' : State} (h : s.pollRecv net i metaLen = some s') :
    ∃ rest, KeepingEffects net ⟨[], s⟩ ⟨rest, s'⟩ ∧
      ((∀ delivery, s.sockets i = some delivery → delivery.maxTransmits ≤ metaLen) → rest = []) := by
  unfold pollRecv at h
  split at h
  · simp at h
  · dsimp only at h
    obtain ⟨batch, hperm, -, hlen, -, -, hresult⟩ :=
      ((s.sockets i).getD (.new metaLen)).poll_takes (s.nodes i).inbound s.now i
    generalize ((s.sockets i).getD (.new metaLen)).poll (s.nodes i).inbound s.now i = result at h hperm hresult
    obtain ⟨result, delivery, q⟩ := result
    have htake : KeepingEffects net ⟨[], s⟩ ⟨batch.map (·.atHost i) ++ [], _⟩ :=
      .single (.takeUp (.takeInbound [] s i q delivery batch hperm) (by simp [PrioritizedInTransitData.atHost]) rfl)
    rcases hresult with ⟨source, hpending, hbatch⟩ | ⟨-, hready⟩
    · subst hpending hbatch
      obtain rfl := Option.some.inj h
      exact ⟨[], htake, fun _ => rfl⟩
    · obtain rfl : result = .ready (batch.map PrioritizedInTransitData.deliver) := hready
      obtain rfl := Option.some.inj h
      have hsplit : batch.map (·.atHost i) = ((batch.map PrioritizedInTransitData.deliver).take metaLen).map
          (fun x => (Place.inbound i, x.data)) ++ (batch.drop metaLen).map (·.atHost i) := by
        rw [← List.map_take, List.map_map]
        exact (congrArg (List.map (·.atHost i)) (List.take_append_drop metaLen batch).symm).trans List.map_append
      rw [List.append_nil, hsplit] at htake
      refine ⟨_, htake.trans (read_effects _ _ _), fun hslots => ?_⟩
      have hmax : ((s.sockets i).getD (.new metaLen)).maxTransmits ≤ metaLen := by
        cases hsocket : s.sockets i with
        | none => exact Nat.le_refl _
        | some delivery => exact hslots delivery hsocket
      rw [List.drop_eq_nil_of_le (hlen.trans hmax), List.map_nil]

/-! ### Link tasks -/

/-- The packet that the task has after the move. -/
def Move.packet? : Move → Option OutgoingPacket
  | .await task => task.packet?
  | .ready packet => some packet
  | .panic => none

/-- The move goes on with the packet, less preferred links than before. -/
def Move.Carries (m : Move) (p : OutgoingPacket) : Prop := ∃ links, m.packet? = some { p with preferredLinks := links }

variable {j : LinkIx} {p p' : OutgoingPacket} {m : Move}

theorem yieldToPreferred_carries (s : State) (j : LinkIx) (p : OutgoingPacket) : (s.yieldToPreferred j p).Carries p := by
  unfold yieldToPreferred
  split
  · exact ⟨p.preferredLinks, rfl⟩
  · dsimp only
    split_ifs <;> exact ⟨_, rfl⟩

theorem recheckLink_carries (s : State) (j : LinkIx) (p : OutgoingPacket) : (s.recheckLink j p).Carries p := by
  unfold recheckLink
  split
  · exact yieldToPreferred_carries s j p
  · exact ⟨p.preferredLinks, rfl⟩

theorem waitForNode_carries (s : State) (j : LinkIx) (p : OutgoingPacket) : (s.waitForNode j p).Carries p := by
  unfold waitForNode
  split
  · exact ⟨p.preferredLinks, rfl⟩
  · exact recheckLink_carries s j p

theorem waitForLink_carries (s : State) (j : LinkIx) (p : OutgoingPacket) : (s.waitForLink j p).Carries p := by
  unfold waitForLink
  split
  · exact ⟨p.preferredLinks, rfl⟩
  · exact waitForNode_carries s j p

theorem select_carries {done : Bool} {go : Move} {pending : LinkTask} (hgo : go.Carries p)
    (hpending : pending.packet? = some p) : (s.select j p done go pending).Carries p := by
  unfold select
  split_ifs
  · exact yieldToPreferred_carries s j p
  · exact hgo
  · exact ⟨p.preferredLinks, hpending⟩

theorem pollSleepBandwidth_carries (s : State) (j : LinkIx) (p : OutgoingPacket) (deadline : Nat) :
    (s.pollSleepBandwidth j p deadline).Carries p :=
  select_carries (waitForLink_carries s j p) rfl

/-- `sleep_until_ready_to_send` is only called without bandwidth, so its assertion never fails. -/
theorem takePacket_carries (s : State) (j : LinkIx) (p : OutgoingPacket) : (s.takePacket j p).Carries p := by
  unfold takePacket
  by_cases hb : (s.links j).hasBandwidthAvailable (!(s.linkTasks j).holdsPermit) s.now
  · rw [if_pos hb]
    exact yieldToPreferred_carries s j p
  · rw [if_neg hb, sleepUntilReadyToSend]
    simp only [hb]
    exact pollSleepBandwidth_carries s j p _

theorem resume_carries {task : LinkTask} (htask : task.packet? = some p) (hm : s.resume j task = some m) : m.Carries p := by
  cases task with
  | next => simp [LinkTask.packet?] at htask
  | panicked => simp [LinkTask.packet?] at htask
  | sleepBandwidth q deadline =>
    obtain rfl := Option.some.inj htask
    obtain rfl := Option.some.inj hm
    exact pollSleepBandwidth_carries s j q deadline
  | sleepLinkUp q upRx =>
    obtain rfl := Option.some.inj htask
    obtain rfl := Option.some.inj hm
    exact select_carries (waitForNode_carries s j q) rfl
  | sleepNodeUp q upRx =>
    obtain rfl := Option.some.inj htask
    obtain rfl := Option.some.inj hm
    exact select_carries (recheckLink_carries s j q) rfl
  | yielding q =>
    obtain rfl := Option.some.inj htask
    obtain rfl := Option.some.inj hm
    exact yieldToPreferred_carries s j q

end State

namespace Picks
open State
variable {net : InMemoryNetwork} {s s₁ : State} {j : LinkIx} {p p' : OutgoingPacket} {m : Move} {task : LinkTask}

theorem carries (h : Picks j s p s₁ m) : m.Carries p := by
  cases h with
  | take queue htask hqueue hs hm => exact hm ▸ takePacket_carries s₁ j p
  | resume hs htask hm => exact resume_carries htask hm

theorem ready (h : Picks j s p s₁ (.ready p')) : ∃ links, p' = { p with preferredLinks := links } := by
  obtain ⟨links, heq⟩ := h.carries
  exact ⟨links, Option.some.inj heq⟩

theorem await (h : Picks j s p s₁ (.await task)) : ∃ links, task.packet? = some { p with preferredLinks := links } :=
  h.carries

theorem perform_effect (h : Picks j s p s₁ m) (slot : Nat) : LinkEffect net j s (s₁.perform net j slot m) := by
  cases m with
  | panic =>
    obtain ⟨links, heq⟩ := h.carries
    simp [Move.packet?] at heq
  | await task => exact .park p s₁ task h
  | ready p' =>
    obtain ⟨links, rfl⟩ := h.ready
    obtain ⟨hhandled, hnodes⟩ : s₁.handled = s.handled ∧ s₁.nodes = s.nodes := by
      cases h with
      | take queue htask hqueue hs => subst hs; exact ⟨rfl, rfl⟩
      | resume hs => subst hs; exact ⟨rfl, rfl⟩
    have hcleared : (s₁.setHandled p.stay).clearedFromBuffer { p with preferredLinks := links } =
        s.clearedFromBuffer p := by
      rw [clearedFromBuffer, clearedFromBuffer, setHandled, hnodes]
    rw [perform, handlePacket]
    simp only [hhandled, hcleared]
    split_ifs with hp hc
    · exact .discard p _ s₁ h hp
    · exact .clear p _ s₁ h (by simpa using hp) hc
    · have hp : s.handled p.stay = false := by simpa using hp
      have hc : s.clearedFromBuffer p = false := by simpa using hc
      rw [State.send]
      by_cases hsane : (s₁.setHandled p.stay).sanityChecks j
      · rw [if_neg (by simp [hsane])]
        cases hdata : NetworkLink.applyCongestion p.anomalies p.data with
        | none => exact .panicSend p _ s₁ h hp hc (.inr hdata)
        | some data => exact .send p _ s₁ data slot h hp hc hsane hdata
      · rw [if_pos (by simp [hsane])]
        exact .panicSend p _ s₁ h hp hc (.inl (by simpa using hsane))

end Picks

namespace State
variable {net : InMemoryNetwork} {s : State} {j : LinkIx} {slot : Nat}

theorem processLinkQueue_effect {s' : State} (h : s.processLinkQueue net j slot = some s') : LinkEffect net j s s' := by
  unfold processLinkQueue at h
  split at h
  · simp at h
  · rename_i p queue htask hqueue
    obtain rfl := Option.some.inj h
    exact (Picks.take queue htask hqueue rfl rfl).perform_effect slot
  · rename_i hnext _ _
    obtain ⟨m, hm, rfl⟩ := Option.map_eq_some_iff.1 h
    have htask : ∃ p, (s.linkTasks j).packet? = some p := by
      cases htask : s.linkTasks j <;> simp_all [resume, LinkTask.packet?]
    obtain ⟨p, hp⟩ := htask
    exact (Picks.resume rfl hp hm).perform_effect slot

end State
end QuicWorkbench
