import QuicWorkbench.Network.Application
import QuicWorkbench.Tracing.ReplayLog
import QuicWorkbench.Tracing.Verifier
import Mathlib.Data.String.Basic

/-!
# Reports

What the commands print about a simulation when it is over, a string for each line. Maps are iterated over in the order of
their entries, which is any order. How ids are displayed, and the part of a link's bandwidth that was used, which is a float, is left
to the parameter `formats`.
-/

namespace QuicWorkbench

def PacketStats.join (s other : PacketStats) : PacketStats :=
  { packets := s.packets + other.packets, bytes := s.bytes + other.bytes }

structure Formats where
  uuid : UuidFormat
  /-- Of the bandwidth used and the bandwidth of the link. -/
  usageRatio : Nat → Nat → String

def NonFatalError.display (formats : Formats) : NonFatalError → String
  | .nodeExceedsBufferSize nodeId bufferSizeBytes maxBufferUsage =>
    s!"network node `{nodeId}` is storing {maxBufferUsage} bytes, but its buffer is of {bufferSizeBytes} bytes"
  | .nodeDownPacketSend nodeId packetId =>
    s!"network node `{nodeId}` sent a packet while it was down (packet `{formats.uuid.display packetId}`)"
  | .nodeDownPacketReceive nodeId packetId =>
    s!"network node `{nodeId}` received a packet while it was down (packet `{formats.uuid.display packetId}`)"
  | .nodeUpPacketDroppedOnArrival nodeId packetId =>
    s!"network node `{nodeId}` dropped a packet upon arrival, even though the node was up at that moment " ++
      s!"(packet `{formats.uuid.display packetId}`)"
  | .packetSurvivedBufferCorruption nodeId packetId =>
    s!"network node `{nodeId}` had a buffer corruption event, but at least one packet remained in the buffer and got sent " ++
      s!"(packet `{formats.uuid.display packetId}`)"
  | .packetCreatedByRouterNode nodeId packetId =>
    s!"network node `{nodeId}` created a packet out of thin air (packet `{formats.uuid.display packetId}`)"
  | .missingLostPacket packetId =>
    s!"packet `{formats.uuid.display packetId}` was marked as lost in transit, but according to the trace the packet was not in transit " ++
      "at that moment"
  | .offlinePacketSend nodeId linkId =>
    s!"network node `{nodeId}` sent a packet through link `{linkId}`, but said link was offline at this point in time"
  | .disconnectedPacketSend nodeId linkId =>
    s!"network node `{nodeId}` sent a packet through link `{linkId}`, but according to the network graph the node is not " ++
      "connected to that link as a sender"
  | .disconnectedPacketReceive nodeId linkId =>
    s!"network node `{nodeId}` received a packet through link `{linkId}`, but according to the network graph the node is " ++
      "not connected to that link as a receiver"
  | .tooFastPacketReceive nodeId linkId =>
    s!"network node `{nodeId}` received a packet through link `{linkId}` faster than the link's delay allows"
  | .offlinePacketReceive nodeId linkId packetSentNs linkLastDownNs =>
    s!"network node `{nodeId}` received a packet through link `{linkId}`, but said link became unavailable while the packet " ++
      s!"was in flight (packet sent at {packetSentNs} ns, link was last down at {linkLastDownNs} ns)"
  | .linkBandwidthExceeded nodeId linkId packetId maxBps observedBps =>
    s!"network node `{nodeId}` sent packet `{formats.uuid.display packetId}` through link `{linkId}`, but the link didn't have enough " ++
      s!"available bandwidth (link bandwidth is {maxBps} bps, but used bandwidth was {observedBps} bps)"

namespace InMemoryNetwork

def getNodeIds (net : InMemoryNetwork) : List String := net.nodesById.keys.insertionSort (· ≤ ·)

/-- `none` is a panic. The bandwidth of a link never changes. -/
def getLinkBandwidthBps (net : InMemoryNetwork) (linkId : String) : Option Nat :=
  (net.linksById.lookup linkId).map fun j => (net.link j).bandwidthBps

end InMemoryNetwork

/-- What is printed of a link; `none` is a panic. -/
def LinkStats.print (stats : LinkStats) (net : InMemoryNetwork) (formats : Formats) (linkId : String) :
    Option (List String) := do
  let bandwidthBps ← net.getLinkBandwidthBps linkId
  let ratio := formats.usageRatio stats.maxUsedBandwidthBps bandwidthBps
  pure
    [s!"* {linkId}:",
      s!"|-> Lost in transit {stats.droppedInTransit.packets} packets ({stats.droppedInTransit.bytes} bytes)",
      s!"|-> Max used bandwidth (bps): {stats.maxUsedBandwidthBps} ({ratio}% of the link's bandwidth)"]

namespace SimulationStats

/-- By the usage, then backwards by the id. -/
def usageLE (t1 t2 : Sigma fun _ : String => NodeStats) : Prop :=
  t1.2.maxBufferUsage < t2.2.maxBufferUsage ∨ t1.2.maxBufferUsage = t2.2.maxBufferUsage ∧ t2.1 ≤ t1.1

instance : DecidableRel usageLE := fun _ _ => inferInstanceAs (Decidable (_ ∨ _))

def idLE {V : Type} (t1 t2 : Sigma fun _ : String => V) : Prop := t1.1 ≤ t2.1

instance {V : Type} : DecidableRel (idLE (V := V)) := fun _ _ => inferInstanceAs (Decidable (_ ≤ _))

/-- The nodes, those that used most of their buffers first. -/
def bufferUsage (stats : SimulationStats) : List (Sigma fun _ : String => NodeStats) :=
  (stats.statsByNode.entries.insertionSort usageLE).reverse

def linkStats (stats : SimulationStats) : List (Sigma fun _ : String => LinkStats) :=
  stats.statsByLink.entries.insertionSort idLE

def printMaxBufferUsagePerNode (stats : SimulationStats) : List String :=
  "--- Max buffer usage per node ---" :: stats.bufferUsage.map fun ⟨nodeId, stats⟩ =>
    s!"* {nodeId}: {stats.maxBufferUsage} bytes " ++
      s!"({stats.droppedBufferFull.packets} packets dropped due to buffer being full)"

/-- `none` is a panic. -/
def printLinkStats (stats : SimulationStats) (net : InMemoryNetwork) (formats : Formats) :
    Option (List String) := do
  let lines ← stats.linkStats.mapM fun e => e.2.print net formats e.1
  pure ((if stats.statsByLink.entries = [] then [] else ["--- Link stats ---"]) ++ lines.flatten)

end SimulationStats

namespace NodeStats

def dropped (stats : NodeStats) : PacketStats :=
  ((stats.droppedInjected.join stats.droppedBufferFull).join stats.droppedOnArrival).join stats.droppedBufferCleared

/-- A reason for which packets were dropped, if any were. -/
def printCause (text : String) (stats : PacketStats) : List String :=
  if stats.packets ≠ 0 then [s!"      | {text} ({stats.packets} packets, {stats.bytes} bytes)"] else []

def printSingleNodeStats (stats : NodeStats) : List String :=
  [s!"  * Sent packets: {stats.sent.packets} ({stats.sent.bytes} bytes)",
    s!"    | {stats.duplicates.packets} packets duplicated ({stats.duplicates.bytes} bytes)",
    s!"    | {stats.congestionExperienced.packets} packets marked with the CE ECN codepoint " ++
      s!"({stats.congestionExperienced.bytes} bytes)",
    s!"    | {stats.dropped.packets} packets dropped ({stats.dropped.bytes} bytes)" ++
      if stats.dropped.packets ≠ 0 then ". Caused by:" else ""] ++
  (if stats.dropped.packets ≠ 0 then
    printCause "node was down when the packet arrived" stats.droppedOnArrival ++
      printCause "buffer was full when the packet arrived" stats.droppedBufferFull ++
      printCause "buffer got cleared before the packet was sent" stats.droppedBufferCleared ++
      printCause "randomly dropped" stats.droppedInjected
  else []) ++
  [s!"  * Received packets: {stats.received.packets} ({stats.received.bytes} bytes)",
    s!"    | {stats.receivedOutOfOrder.packets} packets received out of order ({stats.receivedOutOfOrder.bytes} bytes)"]

end NodeStats

namespace SimulationStats

/-- The statistics of a node under a title; `none` is a panic. -/
def printNode (stats : SimulationStats) (id title : String) : Option (List String) :=
  (stats.statsByNode.lookup id).map fun stats => title :: stats.printSingleNodeStats

/-- `none` is a panic. -/
def printNodeStats (stats : SimulationStats) (nodeIds : List String) (serverNode clientNode : Node) (verbose : Bool) :
    Option (List String) := do
  let client ← stats.printNode clientNode.id s!"* {clientNode.id} (client)"
  let server ← stats.printNode serverNode.id s!"* {serverNode.id} (server)"
  let others ← (if verbose then nodeIds.filter fun id => id ≠ serverNode.id ∧ id ≠ clientNode.id else []).mapM fun id =>
    stats.printNode id s!"* {id}"
  pure (client ++ server ++ others.flatten)

end SimulationStats

/-! ### Commands -/

/-- What a command prints in its own way. -/
structure Command where
  /-- Whether the ids of all nodes are given to `print_node_stats`, or none. -/
  givesNodeIds : Bool
  verboseNodeStats : Bool
  /-- The title of the errors, if they are printed. -/
  errorsTitle : Option String

namespace Command

def quic (verboseNodeStats : Bool) : Command :=
  { givesNodeIds := true, verboseNodeStats, errorsTitle := some "--- Errors" }

def ping : Command := { givesNodeIds := true, verboseNodeStats := true, errorsTitle := none }

def throughput : Command := { givesNodeIds := false, verboseNodeStats := false, errorsTitle := some "--- Errors " }

def displayMaxErrors : Nat := 10

def printErrors (formats : Formats) (title : String) (nonFatalErrors : List NonFatalError) : List String :=
  (if nonFatalErrors = [] then []
    else [title ++ (if displayMaxErrors < nonFatalErrors.length then
      s!"(showing {displayMaxErrors} of {nonFatalErrors.length})" else "") ++ " ---"]) ++
  (nonFatalErrors.take displayMaxErrors).map fun error => s!"* {error.display formats}"

/-- What is printed about a verified simulation; `none` is a panic. -/
def print (c : Command) (net : InMemoryNetwork) (formats : Formats) (serverNode clientNode : Node)
    (verifiedSimulation : VerifiedSimulation) : Option (List String) := do
  let stats := verifiedSimulation.stats
  let nodes ← stats.printNodeStats (if c.givesNodeIds then net.getNodeIds else []) serverNode clientNode c.verboseNodeStats
  let links ← stats.printLinkStats net formats
  let errors := match c.errorsTitle with
    | some title => printErrors formats title verifiedSimulation.nonFatalErrors
    | none => []
  pure (nodes ++ stats.printMaxBufferUsagePerNode ++ links ++ errors)

end Command

inductive ReportError
  /-- failed to create simulation verifier -/
  | verifier (e : SimulationVerifier.NewError)
  /-- failed to verify simulation -/
  | verification (e : InvalidSimulation)

/-- The report about the simulation: its log is verified, and then the command prints. `none` is a panic. That the replay log is
serialised before (with an `unwrap`, which fails for times of 2^64 ns and more) and written to a file is left out. -/
def Command.report (c : Command) (net : InMemoryNetwork) (formats : Formats) (serverIp clientIp : IpAddr)
    (networkSpec : NetworkSpec) (order : List String) (s : State) : Option (Except ReportError (List String)) :=
  match SimulationVerifier.new order s.log networkSpec with
  | .error e => some (.error (.verifier e))
  | .ok verifier => do
    match ← verifier.verify with
    | .error e => pure (.error (.verification e))
    | .ok verifiedSimulation =>
      let server ← net.host serverIp
      let client ← net.host clientIp
      let lines ← c.print net formats (net.node server) (net.node client) verifiedSimulation
      pure (.ok lines)

end QuicWorkbench
