import QuicWorkbench.Network.Node
import QuicWorkbench.Tracing.SimulationStep
import Mathlib.Logic.Function.Basic

/-!
# The network and its state

`InMemoryNetwork` are the tables that `initialize` builds and that never change. `State` is all that
changes in a run: nodes, links, the tasks (each at an await point), the event list, the log, and the
clock. A few fields are history variables: no function of the simulator reads them.

Node `i` and link `j` are the positions of the source's `Arc`s in `InMemoryNetwork.nodes` and `links`.
-/

namespace QuicWorkbench

structure InMemoryNetwork where
  nodes : List Node
  links : List NetworkLinkSpec
  /-- Map from ip addresses to the corresponding nodes. -/
  nodesByAddr : HashMap IpAddr NodeIx
  /-- Map from ids to the corresponding nodes. -/
  nodesById : HashMap String NodeIx
  /-- Map from ip addresses to the available route information. -/
  routesByAddr : HashMap IpAddr (List Route)
  /-- Map from ip address pairs to the corresponding links. -/
  linksByAddr : HashMap (IpAddr × IpAddr) LinkIx
  /-- Map from ids the corresponding links. -/
  linksById : HashMap String LinkIx
  /-- The tracer's `simulation_start`. -/
  simulationStart : Nat
  start : Nat

instance : Inhabited Node := ⟨⟨[], "", none, ⟨0, 0⟩, 0⟩⟩

instance : Inhabited NetworkLinkSpec := ⟨⟨"", .v4 0, .v4 0, 0, 0, 0, 0, 0⟩⟩

namespace InMemoryNetwork

def node (net : InMemoryNetwork) (i : NodeIx) : Node := net.nodes.getD i default

def link (net : InMemoryNetwork) (j : LinkIx) : NetworkLinkSpec := net.links.getD j default

/-- The links that `walk_links` visits, in order. `none` is the panic of `routes_by_addr[&node_addr]`. -/
def walkLinks (net : InMemoryNetwork) (node : Node) (dest : IpAddr) : List (Option LinkIx) :=
  -- prefer direct links if available
  node.addresses.filterMap (fun nodeAddr => (net.linksByAddr.lookup (nodeAddr, dest)).map some) ++
    -- use routing when no direct links are available
    node.addresses.flatMap fun nodeAddr =>
      match net.routesByAddr.lookup nodeAddr with
      | none => [none]
      | some routes =>
        (routes.filterMap (·.nextHopTowardsDestination dest)).filterMap fun nextHopAddr =>
          (net.linksByAddr.lookup (nodeAddr, nextHopAddr)).map some

/-- The walk breaks at the first link; `none` is a panic. -/
def hasRouteTo (net : InMemoryNetwork) (node : Node) (dest : IpAddr) : Option Bool :=
  match net.walkLinks node dest with
  | [] => some false
  | some _ :: _ => some true
  | none :: _ => none

/-- All links of the walk; `none` is a panic. -/
def candidateLinks (net : InMemoryNetwork) (node : Node) (dest : IpAddr) : Option (List LinkIx) :=
  (net.walkLinks node dest).mapM id

end InMemoryNetwork

/-! ### Tasks -/

/-- `process_buffer_for_node` awaits the next packet of the channel, or has ended. -/
inductive NodeTask
  | running
  | returned
  | panicked
  deriving DecidableEq

/-- Where `process_link_queue` awaits. The constructors `sleep…` are inside
`sleep_until_ready_to_send`. -/
inductive LinkTask
  /-- `packet_rx.next()` -/
  | next
  /-- The sleep until enough bandwidth, or until the packet gets sent. -/
  | sleepBandwidth (packet : OutgoingPacket) (deadline : Nat)
  /-- The wait for the link's up-notifier, or until the packet gets sent. -/
  | sleepLinkUp (packet : OutgoingPacket) (upRx : Nat)
  /-- The wait for the node's up-notifier, or until the packet gets sent. -/
  | sleepNodeUp (packet : OutgoingPacket) (upRx : Nat)
  /-- `yield_now`, giving the links before `packet.preferredLinks` a chance. -/
  | yielding (packet : OutgoingPacket)
  | panicked
  deriving DecidableEq

/-- The packet that the task has taken out of the queue and not yet handled or discarded. -/
def LinkTask.packet? : LinkTask → Option OutgoingPacket
  | .next | .panicked => none
  | .sleepBandwidth p _ | .sleepLinkUp p _ | .sleepNodeUp p _ | .yielding p => some p

/-- The permit of the semaphore is held from the first await of `sleep_until_ready_to_send` to its
end. Only the link's own task ever acquires it, so it never waits for it. -/
def LinkTask.holdsPermit : LinkTask → Bool
  | .sleepBandwidth .. | .sleepLinkUp .. | .sleepNodeUp .. => true
  | .next | .yielding _ | .panicked => false

/-- `forward_packets_from_link_to_node` awaits a delivery, or has panicked. -/
inductive ForwarderTask
  | awaiting (delivery : NextPacketDelivery)
  | panicked

/-! ### The state -/

/-- What happened to the packets of the outbound buffers. -/
inductive Observation
  /-- `enqueue_outbound` reserved the bytes of the packet. -/
  | accepted (stay : Nat) (node : NodeIx) (data : InTransitData)
  /-- `process_buffer_for_node` hands the packet to its candidate links. -/
  | offered (stay : Nat) (links : List LinkIx)
  /-- `NetworkLink::send` sent the packet. -/
  | sent (at_ : Nat) (link : LinkIx) (packet : OutgoingPacket)
  /-- `NetworkLink::send` was called and panicked. -/
  | sendPanicked (link : LinkIx) (packet : OutgoingPacket)
  /-- A link task dropped the packet, a clear-buffer event having taken it. -/
  | cleared (link : LinkIx) (packet : OutgoingPacket)
  /-- A link task discarded its copy of the packet. -/
  | discarded (link : LinkIx) (packet : OutgoingPacket)
  deriving DecidableEq

structure State where
  now : Nat
  nodes : NodeIx → NodeState
  links : LinkIx → NetworkLink
  oneshots : Oneshots
  /-- The watch channels of the packets, by stay: true once one of the links handled the packet. -/
  handled : Nat → Bool
  nextTransmitNumber : Nat
  nodeTasks : NodeIx → NodeTask
  linkTasks : LinkIx → LinkTask
  forwarders : LinkIx → ForwarderTask
  /-- `next_packet_delivery` of the socket of each host. -/
  sockets : NodeIx → Option NextPacketDelivery
  /-- The events that the event task has not processed yet. -/
  events : List NetworkEvent
  /-- The recorded steps of the tracer. -/
  log : List SimulationStep
  /-- History: the number of packets accepted so far. -/
  nextStay : Nat
  /-- History: the packet ids generated so far. -/
  generated : List Uuid
  /-- History: what happened to the packets of the outbound buffers, oldest first. -/
  history : List Observation

namespace State

variable (s : State)

def setNode (i : NodeIx) (n : NodeState) : State := { s with nodes := Function.update s.nodes i n }

def setLink (j : LinkIx) (l : NetworkLink) : State := { s with links := Function.update s.links j l }

def setNodeTask (i : NodeIx) (t : NodeTask) : State := { s with nodeTasks := Function.update s.nodeTasks i t }

def setLinkTask (j : LinkIx) (t : LinkTask) : State := { s with linkTasks := Function.update s.linkTasks j t }

def setForwarder (j : LinkIx) (t : ForwarderTask) : State := { s with forwarders := Function.update s.forwarders j t }

def observe (o : Observation) : State := { s with history := s.history ++ [o] }

/-- The tracer's `record`. -/
def record (net : InMemoryNetwork) (kind : SimulationStepKind) : State :=
  { s with log := s.log ++ [{ relativeTime := s.now - net.simulationStart, kind }] }

end State

end QuicWorkbench
