import QuicWorkbench.Config.Quinn
import QuicWorkbench.Network.Event

/-!
# The JSON of network graphs and events

What the files say, and what is made of it: a network graph, network events, and the QUIC configurations of the hosts. How
the records are read from the files is left to serde; the defaults are those of the fields.
-/

namespace QuicWorkbench

inductive NetworkNodeKindJson
  | router
  | host
  deriving DecidableEq

structure NetworkAddressJson where
  address : Ipv4Cidr

structure NetworkRouteJson where
  destination : IpRange
  next : IpAddr
  cost : Nat

structure NetworkInterfaceJson where
  addresses : List NetworkAddressJson
  routes : List NetworkRouteJson

structure NetworkNodeJson where
  id : String
  bufferSizeBytes : Nat
  kind : NetworkNodeKindJson
  quic : Option QuinnJsonConfig
  interfaces : List NetworkInterfaceJson
  packetDuplicationRatio : ℚ := 0
  packetLossRatio : ℚ := 0

structure NetworkLinkJson where
  id : String
  source : IpAddr
  target : IpAddr
  bandwidthBps : Nat
  delayMs : Nat
  extraDelayMs : Nat := 0
  extraDelayRatio : ℚ := 0
  congestionEventRatio : ℚ := 0

structure NetworkSpecJson where
  nodes : List NetworkNodeJson
  links : List NetworkLinkJson

def NetworkNodeKindJson.toNodeKind : NetworkNodeKindJson → NodeKind
  | .router => .router
  | .host => .host

def NetworkInterfaceJson.toNetworkInterface (i : NetworkInterfaceJson) : NetworkInterface :=
  { addresses := i.addresses.map (·.address)
    routes := i.routes.map fun r => { destination := r.destination, next := r.next, cost := r.cost } }

def NetworkNodeJson.toNetworkNodeSpec (n : NetworkNodeJson) : NetworkNodeSpec :=
  { id := n.id
    kind := n.kind.toNodeKind
    bufferSizeBytes := n.bufferSizeBytes
    interfaces := n.interfaces.map NetworkInterfaceJson.toNetworkInterface
    packetLossRatio := n.packetLossRatio
    packetDuplicationRatio := n.packetDuplicationRatio }

def NetworkLinkJson.toNetworkLinkSpec (l : NetworkLinkJson) : NetworkLinkSpec :=
  { id := l.id
    source := l.source
    target := l.target
    delay := Duration.fromMillis l.delayMs
    bandwidthBps := l.bandwidthBps
    congestionEventRatio := l.congestionEventRatio
    extraDelay := Duration.fromMillis l.extraDelayMs
    extraDelayRatio := l.extraDelayRatio }

namespace NetworkSpecJson

def toNetworkSpec (json : NetworkSpecJson) : NetworkSpec :=
  { nodes := json.nodes.map NetworkNodeJson.toNetworkNodeSpec
    links := json.links.map NetworkLinkJson.toNetworkLinkSpec }

def quicConfigs (json : NetworkSpecJson) : HashMap String QuinnJsonConfig :=
  json.nodes.foldl (fun configs node => if node.kind = .host then configs.insert node.id (node.quic.getD {}) else configs) ∅

end NetworkSpecJson

/-! ### Events -/

inductive NetworkNodeStatusJson
  | up
  | down

inductive NetworkLinkStatusJson
  | up
  | down

structure NodeEventPayloadJson where
  id : String
  status : Option NetworkNodeStatusJson := none
  clearBuffer : Bool := false

structure LinkEventPayloadJson where
  id : String
  status : Option NetworkLinkStatusJson
  bandwidthBps : Option Nat
  delayMs : Option Nat
  extraDelayMs : Option Nat
  extraDelayRatio : Option ℚ
  packetDuplicationRatio : Option ℚ
  packetLossRatio : Option ℚ
  congestionEventRatio : Option ℚ

structure RawNetworkEventJson where
  relativeTimeMs : Nat
  link : Option LinkEventPayloadJson
  node : Option NodeEventPayloadJson

inductive EventPayloadJson
  | node (payload : NodeEventPayloadJson)
  | link (payload : LinkEventPayloadJson)

structure NetworkEventJson where
  relativeTimeMs : Nat
  payload : EventPayloadJson

def NetworkNodeStatusJson.toUpdate : NetworkNodeStatusJson → UpdateNodeStatus
  | .up => .up
  | .down => .down

def NetworkLinkStatusJson.toUpdate : NetworkLinkStatusJson → UpdateLinkStatus
  | .up => .up
  | .down => .down

namespace NetworkEventJson

def tryFrom (raw : RawNetworkEventJson) : Except String NetworkEventJson := do
  let payload ← match raw.link, raw.node with
    | some link, none => .ok (.link link)
    | none, some node => .ok (.node node)
    | some _, some _ => .error "only one of 'link' or 'node' must be present"
    | none, none => .error "one of 'link' or 'node' must be present"
  pure { relativeTimeMs := raw.relativeTimeMs, payload }

def toNetworkEvent (json : NetworkEventJson) : NetworkEvent :=
  { relativeTime := Duration.fromMillis json.relativeTimeMs
    kind := match json.payload with
      | .node n => .node { nodeId := n.id, status := n.status.map (·.toUpdate), clearBuffer := n.clearBuffer }
      | .link l => .link
        { linkId := l.id
          status := l.status.map (·.toUpdate)
          bandwidthBps := l.bandwidthBps
          delay := l.delayMs.map Duration.fromMillis
          extraDelay := l.extraDelayMs.map Duration.fromMillis
          extraDelayRatio := l.extraDelayRatio
          packetDuplicationRatio := l.packetDuplicationRatio
          packetLossRatio := l.packetLossRatio
          congestionEventRatio := l.congestionEventRatio } }

end NetworkEventJson

end QuicWorkbench
