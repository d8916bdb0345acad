import QuicWorkbench.Network.State
import QuicWorkbench.Lib.Machine

/-!
# What the tasks do

The runtime has one thread, so a task runs from one await point to the next with nothing in between:
each action of `InMemoryNetwork.step` is such a stretch of one task (of `process_link_queue`, an
iteration at most), at a clock value that stays the same throughout. Any task may be polled at any
time, and the clock may advance at any time: the runs of the model are the interleavings of the tasks
at their await points, with wake-ups early or late.

A function that can panic returns `Except State State`; `.error` is the state that a panic leaves.
The draws of the random generator come with the action.
-/

namespace QuicWorkbench

/-- What `forward` draws: a roll for loss and duplication, the id of a duplicate; and the place of the
packet among equal ones in an inbound queue. -/
structure Draws where
  roll : Roll
  uuid : Uuid
  slot : Nat

namespace State

variable (net : InMemoryNetwork) (s : State)

/-! ### The tracer -/

def trackLinkEvent (event : LinkEventPayload) : State :=
  s.record net (.networkEvent { link := some event, node := none })

def trackNodeEvent (event : NodeEventPayload) : State :=
  s.record net (.networkEvent { link := none, node := some event })

def packetInNodeStep (i : NodeIx) (packet : InTransitData) (droppedOnArrival : Bool) : PacketInNode :=
  { packetId := packet.id
    packetNumber := packet.number
    packetSizeBytes := packet.packetSize
    nodeId := (net.node i).id
    droppedOnArrival }

def genericPacketEvent (i : NodeIx) (packet : InTransitData) : GenericPacketEvent :=
  { packetId := packet.id
    packetNumber := packet.number
    packetSizeBytes := packet.packetSize
    nodeId := (net.node i).id }

def trackPacketInNode (i : NodeIx) (packet : InTransitData) : State :=
  s.record net (.packetInNode (packetInNodeStep net i packet false))

def trackDroppedOnArrival (i : NodeIx) (packet : InTransitData) : State :=
  s.record net (.packetInNode (packetInNodeStep net i packet true))

def trackPacketInTransit (i : NodeIx) (j : LinkIx) (packet : InTransitData) : State :=
  s.record net (.packetInTransit
    { packetId := packet.id, nodeId := (net.node i).id, linkId := (net.link j).id })

def trackDropped (reason : DropReason) (i : NodeIx) (packet : InTransitData) : State :=
  s.record net (.packetDropped { packetId := packet.id, nodeId := (net.node i).id, reason })

def trackDroppedByBufferClearEvent : NodeIx → InTransitData → State := s.trackDropped net .bufferCleared

def trackDroppedRandomly : NodeIx → InTransitData → State := s.trackDropped net .random

def trackDroppedBecauseBufferFull : NodeIx → InTransitData → State := s.trackDropped net .bufferFull

def trackLostInTransit (j : LinkIx) (packet : InTransitData) : State :=
  s.record net (.packetLostInTransit { packetId := packet.id, linkId := (net.link j).id })

def trackInjectedFailures (i : NodeIx) (packet : InTransitData) (duplicate : Bool) (extraDelay : Nat)
    (congestionExperienced : Bool) : State :=
  let s := if extraDelay ≠ 0 then
      s.record net (.packetExtraDelay { packetId := packet.id, nodeId := (net.node i).id, extraDelay })
    else s
  let s := if duplicate then s.record net (.packetDuplicated (genericPacketEvent net i packet)) else s
  if congestionExperienced then s.record net (.packetCongestionEvent (genericPacketEvent net i packet)) else s

def trackReadByHost (i : NodeIx) (packet : InTransitData) : State :=
  s.record net (.packetDeliveredToApplication (genericPacketEvent net i packet))

/-! ### Network events -/

def updateNodeStatus (i : NodeIx) (status : UpdateNodeStatus) : State :=
  let (n, oneshots) := (s.nodes i).updateStatus s.oneshots status
  { s.setNode i n with oneshots }

def updateLinkStatus (j : LinkIx) (status : UpdateLinkStatus) : State :=
  let (l, oneshots) := (s.links j).updateStatus s.oneshots status s.now
  { s.setLink j l with oneshots }

def processNodeEvent (event : NodeEventPayload) : State :=
  match net.nodesById.lookup event.nodeId with
  -- the node doesn't exist
  | none => s
  | some i =>
    let s := match event.status with
      | some status => s.updateNodeStatus i status
      | none => s
    let s := if event.clearBuffer then s.setNode i ((s.nodes i).clearBuffer s.now) else s
    s.trackNodeEvent net event

def processLinkEvent (event : LinkEventPayload) : State :=
  match net.linksById.lookup event.linkId with
  -- the link doesn't exist
  | none => s
  | some j =>
    let s := match event.status with
      | some status => s.updateLinkStatus j status
      | none => s
    s.trackLinkEvent net event

def processEvent (event : NetworkEvent) : State :=
  match event.kind with
  | .link payload => s.processLinkEvent net payload
  | .node payload => s.processNodeEvent net payload

/-! ### Forwarding -/

/-- `new_packet_id` -/
def newPacketId (uuid : Uuid) : State := { s with generated := s.generated ++ [uuid] }

/-- The bytes of an accepted packet, reserved in `buffer`. -/
def accept (i : NodeIx) (buffer : OutboundBuffer) (data : InTransitData) : State :=
  { s.setNode i { s.nodes i with outboundBuffer := buffer } with nextStay := s.nextStay + 1 }.observe
    (.accepted s.nextStay i data)

def pushOutbound (i : NodeIx) (packet : BufferedPacket) : State :=
  s.setNode i { s.nodes i with outbound := (s.nodes i).outbound ++ [packet] }

def enqueueOutbound (i : NodeIx) (inNodeSince : Nat) (data : InTransitData) : Except State State :=
  match (s.nodes i).outboundBuffer.reserve data.packetSize with
  | some buffer =>
    let packet : BufferedPacket := { inNodeSince, data, stay := s.nextStay }
    let s := s.accept i buffer data
    -- `unbounded_send` fails once the receiver is gone
    if s.nodeTasks i = .running then .ok (s.pushOutbound i packet) else .error s
  | none => .ok (s.trackDroppedBecauseBufferFull net i data)

def sendInbound (i : NodeIx) (data : InTransitData) (slot : Nat) : State :=
  s.setNode i { s.nodes i with inbound := ((s.nodes i).inbound.send data 0 s.now slot).1 }

def forward (i : NodeIx) (data : InTransitData) (draws : Draws) : Except State State :=
  if (s.nodes i).isDown then .ok (s.trackDroppedOnArrival net i data)
  else
    let s := s.trackPacketInNode net i data
    if (net.node i).udpEndpoint.any (·.addr = data.transmit.destination) then
      -- the packet has arrived to a quinn endpoint
      .ok (s.sendInbound i data draws.slot)
    else
      let failures := (net.node i).injectedFailures
      if draws.roll.1 < failures.packetLossRatio then .ok (s.trackDroppedRandomly net i data)
      else if draws.roll.1 < failures.packetLossRatio + failures.packetDuplicationRatio then do
        let duplicate := { data with id := draws.uuid, duplicate := true }
        let s' ← (s.newPacketId draws.uuid).enqueueOutbound net i s.now data
        (s'.trackInjectedFailures net i duplicate true 0 false).enqueueOutbound net i s.now duplicate
      else s.enqueueOutbound net i s.now data

def forwardDelivered (j : LinkIx) : List DeliveredTransmit → (Nat → Draws) → State → Except State State
  | [], _, s => .ok s
  | transmit :: delivered, draws, s =>
    -- only handle the packets if the link didn't go down after sending
    if (s.links j).wasDownAfter transmit.sent then
      forwardDelivered j delivered (fun k => draws (k + 1)) (s.trackLostInTransit net j transmit.data)
    else
      match net.nodesByAddr.lookup (net.link j).target with
      | none => .error s
      | some i => do
        let s' ← s.forward net i transmit.data (draws 0)
        forwardDelivered j delivered (fun k => draws (k + 1)) s'

def setInTransit (j : LinkIx) (q : InboundQueue) : State := s.setLink j { s.links j with inTransit := q }

def forwardPacketsFromLinkToNode (j : LinkIx) (draws : Nat → Draws) : Option State :=
  match s.forwarders j with
  | .panicked => none
  | .awaiting delivery =>
    match delivery.poll (s.links j).inTransit s.now j with
    | (.pending _, delivery, q) => some ((s.setInTransit j q).setForwarder j (.awaiting delivery))
    | (.ready delivered, _, q) =>
      let s := (s.setInTransit j q).setForwarder j (.awaiting (.new usizeMax))
      match forwardDelivered net j delivered draws s with
      | .ok s => some s
      | .error s => some (s.setForwarder j .panicked)

/-! ### Node buffers -/

def generatePacketAnomalies (link : NetworkLinkSpec) (rolls : Roll × Roll) : PacketAnomalies :=
  { extraDelay := if rolls.1.1 < link.extraDelayRatio then link.extraDelay else 0
    congestionExperienced := rolls.2.1 < link.congestionEventRatio }

def pushOutgoing (j : LinkIx) (packet : OutgoingPacket) : State :=
  s.setLink j { s.links j with outgoingQueue := (s.links j).outgoingQueue ++ [packet] }

/-- The loop of `process_buffer_for_node` over the candidate links that are left. -/
def offer (i : NodeIx) (packet : BufferedPacket) (candidates : List LinkIx) :
    List LinkIx → (Nat → Roll × Roll) → State → Except State State
  | [], _, s => .ok s
  | j :: links, rolls, s =>
    let outgoing : OutgoingPacket :=
      { inNodeSince := packet.inNodeSince
        srcNode := i
        data := packet.data
        anomalies := generatePacketAnomalies (net.link j) (rolls 0)
        preferredLinks := candidates
        stay := packet.stay }
    -- `unbounded_send` fails once the receiver is gone
    if s.linkTasks j = .panicked then .error s
    else offer i packet candidates links (fun k => rolls (k + 1)) (s.pushOutgoing j outgoing)

/-- The end of the task drops the receiver, and with it the packets in the channel. -/
def endNodeTask (i : NodeIx) (task : NodeTask) : State :=
  (s.setNode i { s.nodes i with outbound := [] }).setNodeTask i task

def processBufferForNode (i : NodeIx) (rolls : Nat → Roll × Roll) : Option State :=
  match s.nodeTasks i, (s.nodes i).outbound with
  | .running, packet :: outbound =>
    let s := s.setNode i { s.nodes i with outbound }
    let dest := packet.data.transmit.destination.ip
    match net.hasRouteTo (net.node i) dest with
    | none => some (s.endNodeTask i .panicked)
    -- fatal error: there is no route to the destination
    | some false => some (s.endNodeTask i .returned)
    | some true =>
      match net.candidateLinks (net.node i) dest with
      | none => some (s.endNodeTask i .panicked)
      | some links =>
        match offer net i packet links links rolls (s.observe (.offered packet.stay links)) with
        | .ok s => some s
        | .error s => some (s.endNodeTask i .panicked)
  | _, _ => none

/-! ### Link queues -/

/-- Where a poll of `process_link_queue` gets to with a packet: to an await point, to the point where
the link is ready to send, or to a panic. -/
inductive Move
  | await (task : LinkTask)
  | ready (packet : OutgoingPacket)
  | panic
  deriving DecidableEq

/-- The loop over the preferred links. -/
def yieldToPreferred (j : LinkIx) (packet : OutgoingPacket) : Move :=
  match packet.preferredLinks with
  | [] => .ready packet
  | preferredLink :: preferredLinks =>
    let packet := { packet with preferredLinks }
    -- not the preferred link, so give other links a chance to send first
    if j ≠ preferredLink ∧ !s.handled packet.stay then .await (.yielding packet) else .ready packet

/-- The link could have gone down again while waiting for the node. If it is down, the loop goes back
to waiting for the link. -/
def recheckLink (j : LinkIx) (packet : OutgoingPacket) : Move :=
  match (s.links j).status with
  | .up => s.yieldToPreferred j packet
  | .down upRx => .await (.sleepLinkUp packet upRx)

def waitForNode (j : LinkIx) (packet : OutgoingPacket) : Move :=
  match (s.nodes packet.srcNode).status.notifierForNodeUp with
  | some upRx => .await (.sleepNodeUp packet upRx)
  | none => s.recheckLink j packet

def waitForLink (j : LinkIx) (packet : OutgoingPacket) : Move :=
  match (s.links j).status.notifierForLinkUp with
  | some upRx => .await (.sleepLinkUp packet upRx)
  | none => s.waitForNode j packet

/-- A poll of a `select_biased!` between the packet being handled and `done`; `go` comes after it. -/
def select (j : LinkIx) (packet : OutgoingPacket) (done : Bool) (go : Move) (pending : LinkTask) : Move :=
  -- break the sleep if someone else sends the packet in the meantime
  if s.handled packet.stay then s.yieldToPreferred j packet
  else if done then go
  else .await pending

def pollSleepBandwidth (j : LinkIx) (packet : OutgoingPacket) (deadline : Nat) : Move :=
  s.select j packet (deadline ≤ s.now) (s.waitForLink j packet) (.sleepBandwidth packet deadline)

def sleepUntilReadyToSend (j : LinkIx) (packet : OutgoingPacket) : Move :=
  let link := s.links j
  -- we should only wait when no bandwidth is available
  if link.hasBandwidthAvailable (!(s.linkTasks j).holdsPermit) s.now then .panic
  else s.pollSleepBandwidth j packet (s.now + link.pacer.durationUntilCanSend s.now)

/-- The start of an iteration with a packet from the queue. -/
def takePacket (j : LinkIx) (packet : OutgoingPacket) : Move :=
  if (s.links j).hasBandwidthAvailable (!(s.linkTasks j).holdsPermit) s.now then s.yieldToPreferred j packet
  else s.sleepUntilReadyToSend j packet

/-- The continuation of an iteration at an await point. -/
def resume (j : LinkIx) : LinkTask → Option Move
  | .next | .panicked => none
  | .sleepBandwidth packet deadline => some (s.pollSleepBandwidth j packet deadline)
  | .sleepLinkUp packet upRx =>
    some (s.select j packet (s.oneshots.signalled upRx) (s.waitForNode j packet) (.sleepLinkUp packet upRx))
  | .sleepNodeUp packet upRx =>
    some (s.select j packet (s.oneshots.signalled upRx) (s.recheckLink j packet) (.sleepNodeUp packet upRx))
  | .yielding packet => some (s.yieldToPreferred j packet)

/-- What `NetworkLink::send` does behind its assertions. -/
def transmit (j : LinkIx) (packet : OutgoingPacket) (slot : Nat) : State :=
  let data := packet.data
  let s := s.trackPacketInTransit net packet.srcNode j data
  let link := s.links j
  let n := s.nodes packet.srcNode
  ((s.setLink j { link with
      pacer := link.pacer.trackSend s.now data.packetSize
      inTransit := (link.inTransit.send data ((net.link j).delay + packet.anomalies.extraDelay) s.now slot).1 }).setNode
    packet.srcNode { n with outboundBuffer := n.outboundBuffer.release data.packetSize }).observe
      (.sent s.now j packet)

/-- The sanity checks of `NetworkLink::send`. -/
def sanityChecks (j : LinkIx) : Bool :=
  (s.links j).pacer.canSend s.now && !(s.links j).status.isDown

/-- `NetworkLink::send` -/
def send (j : LinkIx) (packet : OutgoingPacket) (slot : Nat) : Except State State :=
  if !s.sanityChecks j then .error s
  else
    match NetworkLink.applyCongestion packet.anomalies packet.data with
    | none => .error s
    | some data => .ok (s.transmit net j { packet with data } slot)

/-- A panic drops the receiver of the link's queue, and with it the packets in it. -/
def panicLinkTask (j : LinkIx) : State :=
  (s.setLink j { s.links j with outgoingQueue := [] }).setLinkTask j .panicked

def setHandled (stay : Nat) : State := { s with handled := Function.update s.handled stay true }

/-- A clear-buffer event took the packet from its node's buffer. -/
def clearedFromBuffer (packet : OutgoingPacket) : Bool :=
  (s.nodes packet.srcNode).clearedFromBuffer packet.inNodeSince

/-- The end of an iteration, ready to send. -/
def handlePacket (j : LinkIx) (packet : OutgoingPacket) (slot : Nat) : State :=
  if s.handled packet.stay then (s.observe (.discarded j packet)).setLinkTask j .next
  else
    let s := s.setHandled packet.stay
    if s.clearedFromBuffer packet then
      ((s.trackDroppedByBufferClearEvent net packet.srcNode packet.data).observe
        (.cleared j packet)).setLinkTask j .next
    else
      match s.send net j packet slot with
      | .ok s => s.setLinkTask j .next
      | .error s => (s.observe (.sendPanicked j packet)).panicLinkTask j

def perform (j : LinkIx) (slot : Nat) : Move → State
  | .await task => s.setLinkTask j task
  | .ready packet => s.handlePacket net j packet slot
  | .panic => s.panicLinkTask j

def processLinkQueue (j : LinkIx) (slot : Nat) : Option State :=
  match s.linkTasks j, (s.links j).outgoingQueue with
  | .next, [] => none
  | .next, packet :: outgoingQueue =>
    let s := s.setLink j { s.links j with outgoingQueue }
    some (s.perform net j slot (s.takePacket j packet))
  | task, _ => (s.resume j task).map (s.perform net j slot)

/-! ### Applications -/

def inTransitData (i : NodeIx) (endpoint : UdpEndpoint) (transmit : OwnedTransmit) (uuid : Uuid) : InTransitData :=
  { id := uuid
    duplicate := false
    sourceId := (net.node i).id
    sourceEndpoint := endpoint
    transmit
    number := s.nextTransmitNumber }

/-- The state that a function leaves, whether it panics or not. -/
def settled : Except State State → State
  | .ok s => s
  | .error s => s

/-- `try_send` of the socket of a host; a panic reaches the application. -/
def trySend (i : NodeIx) (transmit : OwnedTransmit) (uuid : Uuid) (draws : Draws) : Option State :=
  match (net.node i).udpEndpoint with
  | none => none
  | some endpoint =>
    if transmit.segmentSize.isSome then none
    else
      let data := s.inTransitData net i endpoint transmit uuid
      let s := { s.newPacketId uuid with nextTransmitNumber := s.nextTransmitNumber + 1 }
      some (settled (s.forward net i data draws))

/-- `poll_recv` of the socket of a host, with `metaLen` slots for packets. -/
def pollRecv (i : NodeIx) (metaLen : Nat) : Option State :=
  match (net.node i).udpEndpoint with
  | none => none
  | some _ =>
    let delivery := (s.sockets i).getD (.new metaLen)
    let n := s.nodes i
    match delivery.poll n.inbound s.now i with
    | (.pending _, delivery, q) =>
      some { s.setNode i { n with inbound := q } with sockets := Function.update s.sockets i (some delivery) }
    | (.ready delivered, delivery, q) =>
      let s := { s.setNode i { n with inbound := q } with sockets := Function.update s.sockets i (some delivery) }
      -- the `zip` with the slots
      some ((delivered.take metaLen).foldl (fun s transmit => s.trackReadByHost net i transmit.data) s)

end State

/-! ### Steps -/

inductive Action
  /-- The clock advances. -/
  | advance (duration : Nat)
  /-- The event task processes its next event. -/
  | networkEvent
  | trySend (i : NodeIx) (transmit : OwnedTransmit) (uuid : Uuid) (draws : Draws)
  | pollRecv (i : NodeIx) (metaLen : Nat)
  /-- `process_buffer_for_node` takes its next packet. -/
  | nodeTask (i : NodeIx) (rolls : Nat → Roll × Roll)
  /-- `process_link_queue` is polled. -/
  | linkTask (j : LinkIx) (slot : Nat)
  /-- `forward_packets_from_link_to_node` is polled. -/
  | forwarder (j : LinkIx) (draws : Nat → Draws)

namespace InMemoryNetwork

def step (net : InMemoryNetwork) (s : State) : Action → Option State
  | .advance duration => some { s with now := s.now + duration }
  | .networkEvent =>
    match s.events with
    | [] => none
    | event :: events =>
      if net.start + event.relativeTime ≤ s.now then some ({ s with events }.processEvent net event) else none
  | .trySend i transmit uuid draws => s.trySend net i transmit uuid draws
  | .pollRecv i metaLen => s.pollRecv net i metaLen
  | .nodeTask i rolls => if i < net.nodes.length then s.processBufferForNode net i rolls else none
  | .linkTask j slot => if j < net.links.length then s.processLinkQueue net j slot else none
  | .forwarder j draws => if j < net.links.length then s.forwardPacketsFromLinkToNode net j draws else none

def machine (net : InMemoryNetwork) : Machine State Action := ⟨net.step⟩

end InMemoryNetwork

end QuicWorkbench
