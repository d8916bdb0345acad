import QuicWorkbench.Network.Link

/-!
# Nodes

`Node` holds the fields of the source's `Node` that never change, `NodeState` those behind a lock,
together with the receiving end of the outbound channel and, for a host, its inbound queue.
-/

namespace QuicWorkbench

inductive NodeStatus
  | up
  | down (upRx : Nat)
  deriving DecidableEq

def NodeStatus.notifierForNodeUp : NodeStatus → Option Nat
  | .up => none
  | .down upRx => some upRx

/-- The status as an event reports it. -/
def NodeStatus.toUpdate : NodeStatus → UpdateNodeStatus
  | .up => .up
  | .down _ => .down

structure OutboundBuffer where
  availableCapacityBytes : Nat
  deriving DecidableEq

namespace OutboundBuffer

def new (capacityBytes : Nat) : OutboundBuffer := ⟨capacityBytes⟩

/-- The buffer with the bytes reserved, or `none` where there is no space. -/
def reserve (b : OutboundBuffer) (dataSize : Nat) : Option OutboundBuffer :=
  if b.availableCapacityBytes < dataSize then none else some ⟨b.availableCapacityBytes - dataSize⟩

def release (b : OutboundBuffer) (dataSize : Nat) : OutboundBuffer :=
  ⟨b.availableCapacityBytes + dataSize⟩

end OutboundBuffer

structure NodeInjectedFailures where
  packetLossRatio : ℚ
  packetDuplicationRatio : ℚ

structure Node where
  addresses : List IpAddr
  id : String
  udpEndpoint : Option UdpEndpoint
  injectedFailures : NodeInjectedFailures
  /-- The capacity that the outbound buffer is created with. -/
  capacityBytes : Nat

inductive NodeError
  | notAHost (id : String)
  | hostWithoutInterfaces (id : String)
  | hostWithoutAddress (id : String)
  | routerWithoutAddresses (id : String)
  deriving DecidableEq

def NodeError.message : NodeError → String
  | notAHost id => s!"Attempted to create a host from a node that is not a host: {id}"
  | hostWithoutInterfaces id => s!"Host {id} has no interfaces"
  | hostWithoutAddress id => s!"Host {id} has an interface without any address"
  | routerWithoutAddresses id => s!"found router with no addresses: {id}"

namespace Node

def ofSpec (node : NetworkNodeSpec) (udpEndpoint : Option UdpEndpoint) : Node :=
  { addresses := node.addresses
    id := node.id
    udpEndpoint
    injectedFailures := { packetLossRatio := node.packetLossRatio
                          packetDuplicationRatio := node.packetDuplicationRatio }
    capacityBytes := node.bufferSizeBytes }

def host (node : NetworkNodeSpec) : Except NodeError (Node × UdpEndpoint) :=
  if node.kind ≠ .host then .error (.notAHost node.id)
  else
    match node.interfaces with
    | [] => .error (.hostWithoutInterfaces node.id)
    | interface :: _ =>
      match interface.addresses with
      | [] => .error (.hostWithoutAddress node.id)
      | address :: _ =>
        let endpoint : UdpEndpoint := { addr := { ip := address.asIpAddr, port := hostPort } }
        .ok (ofSpec node (some endpoint), endpoint)

def router (node : NetworkNodeSpec) : Except NodeError Node :=
  if node.addresses.isEmpty then .error (.routerWithoutAddresses node.id) else .ok (ofSpec node none)

end Node

structure NodeState where
  status : NodeStatus
  lastBufferClear : Option Nat
  outboundBuffer : OutboundBuffer
  /-- The packets in the outbound channel. -/
  outbound : List BufferedPacket
  /-- The inbound queue of the node's endpoint. -/
  inbound : InboundQueue

namespace NodeState

def new (node : Node) : NodeState :=
  { status := .up
    lastBufferClear := none
    outboundBuffer := .new node.capacityBytes
    outbound := []
    inbound := .new }

def isDown (n : NodeState) : Bool :=
  match n.status with
  | .up => false
  | .down _ => true

/-- The status is moved out, as the one of a link. -/
def updateStatus (n : NodeState) (oneshots : Oneshots) (update : UpdateNodeStatus) : NodeState × Oneshots :=
  let status := n.status
  let n := { n with status := .up }
  match status, update with
  -- no update, restore the original status
  | .down upTx, .down => ({ n with status := .down upTx }, oneshots)
  | .up, .up => ({ n with status := .up }, oneshots)
  | .up, .down => ({ n with status := .down oneshots.length }, oneshots ++ [false])
  -- notify anyone waiting that the node is back up
  | .down upTx, .up => ({ n with status := .up }, oneshots.set upTx true)

theorem updateStatus_eq (n : NodeState) (oneshots : Oneshots) (update : UpdateNodeStatus) :
    n.updateStatus oneshots update =
      match n.status, update with
      | .down _, .down | .up, .up => (n, oneshots)
      | .up, .down => ({ n with status := .down oneshots.length }, oneshots ++ [false])
      | .down upTx, .up => ({ n with status := .up }, oneshots.set upTx true) := by
  obtain ⟨status, lastBufferClear, outboundBuffer, outbound, inbound⟩ := n
  cases status <;> cases update <;> rfl

def clearBuffer (n : NodeState) (now : Nat) : NodeState := { n with lastBufferClear := some now }

/-- The test of `process_link_queue` for packets that a clear-buffer event took. -/
def clearedFromBuffer (n : NodeState) (inNodeSince : Nat) : Bool :=
  match n.lastBufferClear with
  | some t => inNodeSince < t
  | none => false

end NodeState

end QuicWorkbench
