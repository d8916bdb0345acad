import QuicWorkbench.Lib.Except
import QuicWorkbench.Lib.Tracked
import QuicWorkbench.Tracing.SimulationStep

/-!
# The verifier

The replay of a log. Non-fatal errors are tracked, fatal ones stop the replay, and so do the
panics of the code (a failing `unwrap` or subtraction), which `Stop.panic` tells from them.
-/

namespace QuicWorkbench

/-! ### Statistics -/

structure PacketStats where
  packets : Nat := 0
  bytes : Nat := 0
  deriving DecidableEq

def PacketStats.trackOne (s : PacketStats) (sizeBytes : Nat) : PacketStats :=
  { packets := s.packets + 1, bytes := s.bytes + sizeBytes }

structure LinkStats where
  droppedInTransit : PacketStats := {}
  maxUsedBandwidthBps : Nat := 0
  deriving DecidableEq

structure NodeStats where
  sent : PacketStats
  received : PacketStats
  droppedOnArrival : PacketStats
  droppedInjected : PacketStats
  droppedBufferFull : PacketStats
  droppedBufferCleared : PacketStats
  duplicates : PacketStats
  receivedOutOfOrder : PacketStats
  congestionExperienced : PacketStats
  maxBufferUsage : Nat
  deriving DecidableEq

structure SimulationStats where
  statsByNode : HashMap String NodeStats
  statsByLink : HashMap String LinkStats

/-! ### Errors -/

inductive NonFatalError
  | nodeExceedsBufferSize (nodeId : String) (bufferSizeBytes maxBufferUsage : Nat)
  | nodeDownPacketSend (nodeId : String) (packetId : Uuid)
  | nodeDownPacketReceive (nodeId : String) (packetId : Uuid)
  | nodeUpPacketDroppedOnArrival (nodeId : String) (packetId : Uuid)
  | packetSurvivedBufferCorruption (nodeId : String) (packetId : Uuid)
  | packetCreatedByRouterNode (nodeId : String) (packetId : Uuid)
  | missingLostPacket (packetId : Uuid)
  | offlinePacketSend (nodeId linkId : String)
  | disconnectedPacketSend (nodeId linkId : String)
  | disconnectedPacketReceive (nodeId linkId : String)
  | tooFastPacketReceive (nodeId linkId : String)
  | offlinePacketReceive (nodeId linkId : String) (packetSentNs linkLastDownNs : Nat)
  | linkBandwidthExceeded (nodeId linkId : String) (packetId : Uuid) (maxBps observedBps : Nat)
  deriving DecidableEq

inductive FatalError
  | missingNode (nodeId : String)
  | missingLink (linkId : String)
  | missingPacket (packetId : Uuid)
  | packetAlreadyReceived (packetId : Uuid)
  deriving DecidableEq

inductive Stop
  | fatal (e : FatalError)
  | panic
  deriving DecidableEq

abbrev Replaying (α : Type) := Tracked NonFatalError Stop α

/-- `try_fatal!` on a lookup. -/
def tryFatal {α : Type} (o : Option α) (e : FatalError) : Replaying α := .ofOption (.fatal e) o

/-- `unwrap`. -/
def unwrap {α : Type} (o : Option α) : Replaying α := .ofOption .panic o

/-- A subtraction that panics on underflow. -/
def checkedSub (a b : Nat) : Option Nat := if b ≤ a then some (a - b) else none

/-! ### Replayed nodes -/

structure ReplayedPacket where
  arrivedAt : Nat
  sizeBytes : Nat
  extraDelay : Nat
  deriving DecidableEq

structure ReplayedNode where
  status : UpdateNodeStatus := .up
  lastDown : Option Nat := none
  lastBufferClear : Option Nat := none
  id : String
  packets : HashMap Uuid ReplayedPacket := ∅
  highestReceived : Nat := 0
  sentPackets : PacketStats := {}
  receivedPackets : PacketStats := {}
  reorderedPacketsReceived : PacketStats := {}
  ecnPackets : PacketStats := {}
  duplicatedPackets : PacketStats := {}
  droppedPacketsInjected : PacketStats := {}
  droppedPacketsBufferFull : PacketStats := {}
  droppedPacketsBufferCleared : PacketStats := {}
  droppedPacketsDown : PacketStats := {}
  bufferUsage : Nat := 0
  maxBufferUsage : Nat := 0

namespace ReplayedNode

def new (id : String) : ReplayedNode := { id }

def handleEvent (n : ReplayedNode) (event : NodeEventPayload) (now : Nat) : ReplayedNode :=
  let n := match event.status with
    | some .down => { n with status := .down, lastDown := some now }
    | some .up => { n with status := .up }
    | none => n
  if event.clearBuffer then { n with lastBufferClear := some now } else n

def addPacketToBuffer (n : ReplayedNode) (packetId : Uuid) (sizeBytes now : Nat) : Replaying ReplayedNode := do
  .trackIf (n.status = .down) (.nodeDownPacketReceive n.id packetId)
  if (n.packets.lookup packetId).isSome then .stop (.fatal (.packetAlreadyReceived packetId))
  else pure { n with
    packets := n.packets.insert packetId { sizeBytes, extraDelay := 0, arrivedAt := now }
    bufferUsage := n.bufferUsage + sizeBytes }

def removePacketFromBuffer (n : ReplayedNode) (packetId : Uuid) :
    Replaying (ReplayedPacket × ReplayedNode) := do
  let packet ← tryFatal (n.packets.lookup packetId) (.missingPacket packetId)
  let bufferUsage ← unwrap (checkedSub n.bufferUsage packet.sizeBytes)
  pure (packet, { n with packets := n.packets.erase packetId, bufferUsage })

def packetCreated (n : ReplayedNode) (s : PacketInNode) (now : Nat) : Replaying ReplayedNode :=
  n.addPacketToBuffer s.packetId s.packetSizeBytes now

/-- The counters that `packet_received` updates for every packet, dropped on arrival or not. -/
def trackReceived (n : ReplayedNode) (s : PacketInNode) : ReplayedNode :=
  { n with
    receivedPackets := n.receivedPackets.trackOne s.packetSizeBytes
    reorderedPacketsReceived :=
      if s.packetNumber < n.highestReceived then n.reorderedPacketsReceived.trackOne s.packetSizeBytes
      else n.reorderedPacketsReceived
    highestReceived := max n.highestReceived s.packetNumber }

def packetReceived (n : ReplayedNode) (s : PacketInNode) (now : Nat) : Replaying ReplayedNode :=
  let n := n.trackReceived s
  if s.droppedOnArrival then do
    .trackIf (n.status = .up) (.nodeUpPacketDroppedOnArrival n.id s.packetId)
    pure { n with droppedPacketsDown := n.droppedPacketsDown.trackOne s.packetSizeBytes }
  else n.addPacketToBuffer s.packetId s.packetSizeBytes now

def packetDuplicated (n : ReplayedNode) (s : GenericPacketEvent) (now : Nat) : Replaying ReplayedNode :=
  { n with duplicatedPackets := n.duplicatedPackets.trackOne s.packetSizeBytes }.addPacketToBuffer
    s.packetId s.packetSizeBytes now

def packetSent (n : ReplayedNode) (packetId : Uuid) : Replaying (ReplayedPacket × ReplayedNode) := do
  .trackIf (n.status = .down) (.nodeDownPacketSend n.id packetId)
  let (packet, n) ← n.removePacketFromBuffer packetId
  .trackIf (n.lastBufferClear.any (packet.arrivedAt < ·)) (.packetSurvivedBufferCorruption n.id packetId)
  pure (packet, { n with sentPackets := n.sentPackets.trackOne packet.sizeBytes })

def packetDeliveredToAppLayer (n : ReplayedNode) (packetId : Uuid) : Replaying ReplayedNode := do
  let (_, n) ← n.removePacketFromBuffer packetId
  pure n

def packetDropped (n : ReplayedNode) (s : PacketDropped) : Replaying ReplayedNode := do
  let (packet, n) ← n.removePacketFromBuffer s.packetId
  match s.reason with
  | .random => pure { n with droppedPacketsInjected := n.droppedPacketsInjected.trackOne packet.sizeBytes }
  | .bufferFull =>
    pure { n with droppedPacketsBufferFull := n.droppedPacketsBufferFull.trackOne packet.sizeBytes }
  | .bufferCleared =>
    pure { n with droppedPacketsBufferCleared := n.droppedPacketsBufferCleared.trackOne packet.sizeBytes }

def packetEcn (n : ReplayedNode) (s : GenericPacketEvent) : ReplayedNode :=
  { n with ecnPackets := n.ecnPackets.trackOne s.packetSizeBytes }

def packetHasExtraDelay (n : ReplayedNode) (packetId : Uuid) (delay : Nat) : Replaying ReplayedNode := do
  let packet ← tryFatal (n.packets.lookup packetId) (.missingPacket packetId)
  pure { n with packets := n.packets.insert packetId { packet with extraDelay := delay } }

def updateMaxBufferUsage (n : ReplayedNode) : ReplayedNode :=
  { n with maxBufferUsage := max n.bufferUsage n.maxBufferUsage }

def stats (n : ReplayedNode) : NodeStats :=
  { sent := n.sentPackets
    received := n.receivedPackets
    receivedOutOfOrder := n.reorderedPacketsReceived
    duplicates := n.duplicatedPackets
    droppedInjected := n.droppedPacketsInjected
    droppedBufferFull := n.droppedPacketsBufferFull
    maxBufferUsage := n.maxBufferUsage
    congestionExperienced := n.ecnPackets
    droppedOnArrival := n.droppedPacketsDown
    droppedBufferCleared := n.droppedPacketsBufferCleared }

end ReplayedNode

/-! ### Replayed links -/

structure ReplayedLink where
  status : UpdateLinkStatus := .up
  lastDownRelative : Option Nat := none
  bandwidthUsageBps : Nat := 0
  /-- The deque, front first: the times and bits of the packets in the window. -/
  packetsInBandwidthWindow : List (Nat × Nat) := []
  maxBandwidthUsageBps : Nat := 0

namespace ReplayedLink

def isUp (l : ReplayedLink) : Bool := l.status = .up

def setStatus (l : ReplayedLink) (status : UpdateLinkStatus) (timestampRelative : Nat) : ReplayedLink :=
  match status with
  | .down => { l with status, lastDownRelative := some timestampRelative }
  | .up => { l with status }

/-- 9984 is meant as the MTU; a link that can send less than that per second gets a longer window. -/
def windowSeconds (linkBandwidthBps : Nat) : Nat := if linkBandwidthBps < 9984 then 10 else 1

/-- Remove the packets that have fallen out of the window, and their bits from the usage. -/
def evict (window packetSentTime : Nat) : List (Nat × Nat) → Nat → Option (List (Nat × Nat) × Nat)
  | [], usage => some ([], usage)
  | (time, bits) :: packets, usage =>
    if time + window < packetSentTime then (checkedSub usage bits).bind (evict window packetSentTime packets)
    else some ((time, bits) :: packets, usage)

/-- The link after the packet, and the usage with it. -/
def packetSent (l : ReplayedLink) (packetSentTime packetSizeBytes linkBandwidthBps : Nat) :
    Option (ReplayedLink × Nat) := do
  let window := windowSeconds linkBandwidthBps
  let (packets, usage) ← evict (Duration.fromSecs window) packetSentTime l.packetsInBandwidthWindow l.bandwidthUsageBps
  let packetSizeBits := packetSizeBytes * 8
  let packets := packets ++ [(packetSentTime, packetSizeBits)]
  let usage := usage + packetSizeBits
  -- smooth out the bps if necessary
  let bandwidthUsage := usage / window
  pure ({ l with
    packetsInBandwidthWindow := packets
    bandwidthUsageBps := usage
    maxBandwidthUsageBps := max l.maxBandwidthUsageBps bandwidthUsage }, bandwidthUsage)

end ReplayedLink

/-! ### The replay -/

structure InFlightPacket where
  sizeBytes : Nat
  sentAtRelative : Nat
  extraDelay : Nat
  linkId : String
  deriving DecidableEq

structure LinkMetadata where
  sourceNodeId : String
  targetNodeId : String
  delay : Nat
  bandwidthBps : Nat
  deriving DecidableEq

structure NodeMetadata where
  bufferSizeBytes : Nat
  deriving DecidableEq

/-- The replayed state. The last three fields are locals of `verify`. -/
structure Replay where
  nodes : HashMap String ReplayedNode
  links : HashMap String ReplayedLink
  inFlightPackets : HashMap Uuid InFlightPacket
  lastStepTime : Nat
  lastBufferUsageUpdate : Option Nat
  statsByLink : HashMap String LinkStats

structure SimulationVerifier where
  steps : List SimulationStep
  nodes : HashMap String ReplayedNode
  /-- The order in which an iteration over `nodes` visits them. -/
  nodeOrder : List String
  links : HashMap String ReplayedLink
  hostNodes : List String
  nodeMetadata : HashMap String NodeMetadata
  linkMetadata : HashMap String LinkMetadata

structure VerifiedSimulation where
  stats : SimulationStats
  nonFatalErrors : List NonFatalError

structure InvalidSimulation where
  fatalError : Option FatalError
  nonFatalErrors : List NonFatalError

namespace SimulationVerifier

def start (v : SimulationVerifier) : Replay :=
  { nodes := v.nodes
    links := v.links
    inFlightPackets := ∅
    lastStepTime := 0
    lastBufferUsageUpdate := none
    statsByLink := ∅ }

/-- The loop of `update_max_buffer_usage` over the nodes that are left; it ends at the first node that
exceeds its buffer. -/
def updateMaxBufferUsageLoop (v : SimulationVerifier) : List String → HashMap String ReplayedNode →
    Replaying (HashMap String ReplayedNode)
  | [], nodes => pure nodes
  | nodeId :: rest, nodes =>
    match nodes.lookup nodeId with
    | none => v.updateMaxBufferUsageLoop rest nodes
    | some node => do
      let node := node.updateMaxBufferUsage
      let nodes := nodes.insert nodeId node
      let metadata ← unwrap (v.nodeMetadata.lookup nodeId)
      if metadata.bufferSizeBytes < node.maxBufferUsage then do
        .track (.nodeExceedsBufferSize nodeId metadata.bufferSizeBytes node.maxBufferUsage)
        pure nodes
      else v.updateMaxBufferUsageLoop rest nodes

def updateMaxBufferUsage (v : SimulationVerifier) (r : Replay) : Replaying Replay := do
  let nodes ← v.updateMaxBufferUsageLoop v.nodeOrder r.nodes
  pure { r with nodes }

/-- `PacketInNode`: the packet comes off a link, or was just created at one of the hosts. -/
def packetInNode (v : SimulationVerifier) (r : Replay) (now : Nat) (s : PacketInNode) : Replaying Replay :=
  match r.inFlightPackets.lookup s.packetId with
  | some inFlight => do
    let r := { r with inFlightPackets := r.inFlightPackets.erase s.packetId }
    -- the link is connected to the target node
    let metadata ← unwrap (v.linkMetadata.lookup inFlight.linkId)
    .trackIf (s.nodeId ≠ metadata.targetNodeId) (.disconnectedPacketReceive s.nodeId inFlight.linkId)
    -- transmission took enough time
    let timeInFlight ← unwrap (checkedSub now inFlight.sentAtRelative)
    .trackIf (timeInFlight < metadata.delay + inFlight.extraDelay)
      (.tooFastPacketReceive s.nodeId inFlight.linkId)
    -- the link didn't go down after sending (i.e. forbid up -> down -> up)
    let link ← tryFatal (r.links.lookup inFlight.linkId) (.missingLink inFlight.linkId)
    match link.lastDownRelative with
    | some lastDown =>
      .trackIf (inFlight.sentAtRelative ≤ lastDown)
        (.offlinePacketReceive s.nodeId inFlight.linkId inFlight.sentAtRelative lastDown)
    | none => pure ()
    let node ← tryFatal (r.nodes.lookup s.nodeId) (.missingNode s.nodeId)
    let node ← node.packetReceived s now
    pure { r with nodes := r.nodes.insert s.nodeId node }
  | none => do
    .trackIf (s.nodeId ∉ v.hostNodes) (.packetCreatedByRouterNode s.nodeId s.packetId)
    let node ← tryFatal (r.nodes.lookup s.nodeId) (.missingNode s.nodeId)
    let node ← node.packetCreated s now
    pure { r with nodes := r.nodes.insert s.nodeId node }

def packetDuplicated (r : Replay) (now : Nat) (s : GenericPacketEvent) : Replaying Replay := do
  let node ← tryFatal (r.nodes.lookup s.nodeId) (.missingNode s.nodeId)
  let node ← node.packetDuplicated s now
  pure { r with nodes := r.nodes.insert s.nodeId node }

def packetDropped (r : Replay) (s : PacketDropped) : Replaying Replay := do
  let node ← tryFatal (r.nodes.lookup s.nodeId) (.missingNode s.nodeId)
  let node ← node.packetDropped s
  pure { r with nodes := r.nodes.insert s.nodeId node }

def packetLostInTransit (r : Replay) (s : PacketLostInTransit) : Replaying Replay :=
  match r.inFlightPackets.lookup s.packetId with
  | some packet =>
    let stats := (r.statsByLink.lookup s.linkId).getD {}
    pure { r with
      inFlightPackets := r.inFlightPackets.erase s.packetId
      statsByLink := r.statsByLink.insert s.linkId
        { stats with droppedInTransit := stats.droppedInTransit.trackOne packet.sizeBytes } }
  | none => do
    .track (.missingLostPacket s.packetId)
    pure r

def packetInTransit (v : SimulationVerifier) (r : Replay) (now : Nat) (s : PacketInTransit) : Replaying Replay := do
  let node ← tryFatal (r.nodes.lookup s.nodeId) (.missingNode s.nodeId)
  let (packet, node) ← node.packetSent s.packetId
  let r := { r with nodes := r.nodes.insert s.nodeId node }
  -- the link is connected to the source node
  let metadata ← tryFatal (v.linkMetadata.lookup s.linkId) (.missingLink s.linkId)
  .trackIf (s.nodeId ≠ metadata.sourceNodeId) (.disconnectedPacketSend s.nodeId s.linkId)
  -- the link is up
  let link ← tryFatal (r.links.lookup s.linkId) (.missingLink s.linkId)
  .trackIf (!link.isUp) (.offlinePacketSend s.nodeId s.linkId)
  -- the link's bandwidth is respected
  let (link, usedBandwidthBps) ← unwrap (link.packetSent now packet.sizeBytes metadata.bandwidthBps)
  .trackIf (metadata.bandwidthBps < usedBandwidthBps)
    (.linkBandwidthExceeded s.nodeId s.linkId s.packetId metadata.bandwidthBps usedBandwidthBps)
  pure { r with
    links := r.links.insert s.linkId link
    inFlightPackets := r.inFlightPackets.insert s.packetId
      { sizeBytes := packet.sizeBytes
        sentAtRelative := now
        linkId := s.linkId
        extraDelay := packet.extraDelay } }

def packetCongestionEvent (r : Replay) (s : GenericPacketEvent) : Replaying Replay := do
  let node ← tryFatal (r.nodes.lookup s.nodeId) (.missingNode s.nodeId)
  pure { r with nodes := r.nodes.insert s.nodeId (node.packetEcn s) }

def packetDeliveredToApplication (r : Replay) (s : GenericPacketEvent) : Replaying Replay := do
  let node ← tryFatal (r.nodes.lookup s.nodeId) (.missingNode s.nodeId)
  let node ← node.packetDeliveredToAppLayer s.packetId
  pure { r with nodes := r.nodes.insert s.nodeId node }

def packetExtraDelay (r : Replay) (s : PacketHasExtraDelay) : Replaying Replay := do
  let node ← tryFatal (r.nodes.lookup s.nodeId) (.missingNode s.nodeId)
  let node ← node.packetHasExtraDelay s.packetId s.extraDelay
  pure { r with nodes := r.nodes.insert s.nodeId node }

def linkEvent (r : Replay) (now : Nat) (payload : LinkEventPayload) : Replaying Replay :=
  match payload.status with
  | none => pure r
  | some status => do
    let link ← tryFatal (r.links.lookup payload.linkId) (.missingLink payload.linkId)
    pure { r with links := r.links.insert payload.linkId (link.setStatus status now) }

def nodeEvent (r : Replay) (now : Nat) (payload : NodeEventPayload) : Replaying Replay := do
  let node ← tryFatal (r.nodes.lookup payload.nodeId) (.missingNode payload.nodeId)
  pure { r with nodes := r.nodes.insert payload.nodeId (node.handleEvent payload now) }

def networkEvent (r : Replay) (now : Nat) (e : NetworkEventStep) : Replaying Replay :=
  (match e.link with
    | some payload => linkEvent r now payload
    | none => pure r) >>= fun r =>
  match e.node with
  | some payload => nodeEvent r now payload
  | none => pure r

/-- The `match` of `verify` on the kind of a step. -/
def replayKind (v : SimulationVerifier) (r : Replay) (now : Nat) : SimulationStepKind → Replaying Replay
  | .packetInNode s => v.packetInNode r now s
  | .packetDuplicated s => packetDuplicated r now s
  | .packetDropped s => packetDropped r s
  | .packetLostInTransit s => packetLostInTransit r s
  | .packetInTransit s => v.packetInTransit r now s
  | .packetCongestionEvent s => packetCongestionEvent r s
  | .packetDeliveredToApplication s => packetDeliveredToApplication r s
  | .packetExtraDelay s => packetExtraDelay r s
  | .networkEvent e => networkEvent r now e

/-- When time advances, the buffer usages at the end of the instant are taken. -/
def advanceTime (v : SimulationVerifier) (r : Replay) (relativeTime : Nat) : Replaying Replay :=
  if relativeTime ≠ r.lastStepTime then do
    let r ← v.updateMaxBufferUsage r
    pure { r with lastBufferUsageUpdate := some r.lastStepTime, lastStepTime := relativeTime }
  else pure r

def replayStep (v : SimulationVerifier) (r : Replay) (step : SimulationStep) : Replaying Replay := do
  let r ← v.advanceTime r step.relativeTime
  v.replayKind r step.relativeTime step.kind

def replay (v : SimulationVerifier) (r : Replay) (steps : List SimulationStep) : Replaying Replay :=
  .fold v.replayStep r steps

/-- The check behind the loop. -/
def finish (v : SimulationVerifier) (r : Replay) : Replaying Replay :=
  if r.lastBufferUsageUpdate ≠ some r.lastStepTime then v.updateMaxBufferUsage r else pure r

def simulationStats (r : Replay) : SimulationStats :=
  { statsByNode := r.nodes.entries.foldl (fun stats ⟨nodeId, node⟩ => stats.insert nodeId node.stats) ∅
    statsByLink := r.links.entries.foldl (fun stats ⟨linkId, link⟩ =>
      stats.insert linkId
        { (stats.lookup linkId).getD {} with maxUsedBandwidthBps := link.maxBandwidthUsageBps }) r.statsByLink }

/-- The replay of all steps, and the check behind it. -/
def run (v : SimulationVerifier) : Replaying Replay := do
  let r ← v.replay v.start v.steps
  v.finish r

/-- The result of `verify`; `none` is a panic. -/
def verify (v : SimulationVerifier) : Option (Except InvalidSimulation VerifiedSimulation) :=
  match v.run.result with
  | .ok r => some (.ok { stats := simulationStats r, nonFatalErrors := v.run.errors })
  | .error (.fatal e) => some (.error { fatalError := some e, nonFatalErrors := v.run.errors })
  | .error .panic => none

/-! ### Construction -/

inductive NewError
  | addressOfTwoNodes (addr : Ipv4Cidr) (nodeId existing : String)
  | noSourceNode (linkId : String) (source : IpAddr)
  | noTargetNode (linkId : String) (target : IpAddr)
  deriving DecidableEq

/-- Map the addresses of a node to it. -/
def mapAddresses (nodeId : String) : List Ipv4Cidr → HashMap IpAddr String → Except NewError (HashMap IpAddr String)
  | [], ipToNode => .ok ipToNode
  | addr :: addrs, ipToNode =>
    match ipToNode.lookup addr.asIpAddr with
    | some existing =>
      if existing ≠ nodeId then .error (.addressOfTwoNodes addr nodeId existing)
      else mapAddresses nodeId addrs (ipToNode.insert addr.asIpAddr nodeId)
    | none => mapAddresses nodeId addrs (ipToNode.insert addr.asIpAddr nodeId)

def mapNodes : List NetworkNodeSpec → HashMap IpAddr String → Except NewError (HashMap IpAddr String)
  | [], ipToNode => .ok ipToNode
  | node :: nodes, ipToNode => do
    let ipToNode ← mapAddresses node.id (node.interfaces.flatMap (·.addresses)) ipToNode
    mapNodes nodes ipToNode

def linkMetadataOf (ipToNode : HashMap IpAddr String) :
    List NetworkLinkSpec → HashMap String LinkMetadata → Except NewError (HashMap String LinkMetadata)
  | [], metadata => .ok metadata
  | link :: links, metadata =>
    match ipToNode.lookup link.source, ipToNode.lookup link.target with
    | none, _ => .error (.noSourceNode link.id link.source)
    | _, none => .error (.noTargetNode link.id link.target)
    | some sourceNodeId, some targetNodeId =>
      linkMetadataOf ipToNode links (metadata.insert link.id
        { sourceNodeId, targetNodeId, delay := link.delay, bandwidthBps := link.bandwidthBps })

/-- `order` is the order in which the map of the nodes will be iterated over. Sorting leaves a sorted
log as it is. -/
def new (order : List String) (steps : List SimulationStep) (spec : NetworkSpec) :
    Except NewError SimulationVerifier := do
  let sorted := steps.insertionSort fun a b => a.relativeTime ≤ b.relativeTime
  let ipToNode ← mapNodes spec.nodes ∅
  let linkMetadata ← linkMetadataOf ipToNode spec.links ∅
  pure
    { steps := sorted
      nodes := spec.nodes.foldl (fun m node => m.insert node.id (.new node.id)) ∅
      nodeOrder := order
      links := spec.links.foldl (fun m link => m.insert link.id {}) ∅
      hostNodes := (spec.nodes.filter (·.kind = .host)).map (·.id)
      nodeMetadata := spec.nodes.foldl (fun m node => m.insert node.id ⟨node.bufferSizeBytes⟩) ∅
      linkMetadata }

theorem new_eq_ok_iff {order : List String} {steps : List SimulationStep} {spec : NetworkSpec} {v : SimulationVerifier} :
    new order steps spec = .ok v ↔ ∃ ipToNode, mapNodes spec.nodes ∅ = .ok ipToNode ∧
      ∃ linkMetadata, linkMetadataOf ipToNode spec.links ∅ = .ok linkMetadata ∧
        { steps := steps.insertionSort fun a b => a.relativeTime ≤ b.relativeTime
          nodes := spec.nodes.foldl (fun m node => m.insert node.id (.new node.id)) ∅
          nodeOrder := order
          links := spec.links.foldl (fun m link => m.insert link.id {}) ∅
          hostNodes := (spec.nodes.filter (·.kind = .host)).map (·.id)
          nodeMetadata := spec.nodes.foldl (fun m node => m.insert node.id ⟨node.bufferSizeBytes⟩) ∅
          linkMetadata } = v := by
  simp only [new, Except.bind_eq_ok, Except.pure_eq_ok]

end SimulationVerifier

end QuicWorkbench
