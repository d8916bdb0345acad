import QuicWorkbench.Network.Event

/-!
# The replay log

The steps that a simulation records and the verifier replays.
-/

namespace QuicWorkbench

structure GenericPacketEvent where
  packetId : Uuid
  packetNumber : Nat
  packetSizeBytes : Nat
  nodeId : String
  deriving DecidableEq

structure PacketInNode where
  packetId : Uuid
  packetNumber : Nat
  packetSizeBytes : Nat
  nodeId : String
  droppedOnArrival : Bool
  deriving DecidableEq

inductive DropReason
  | random
  | bufferFull
  | bufferCleared
  deriving DecidableEq

structure PacketDropped where
  packetId : Uuid
  nodeId : String
  reason : DropReason
  deriving DecidableEq

structure PacketHasExtraDelay where
  packetId : Uuid
  nodeId : String
  extraDelay : Nat
  deriving DecidableEq

structure PacketInTransit where
  packetId : Uuid
  nodeId : String
  linkId : String
  deriving DecidableEq

structure PacketLostInTransit where
  packetId : Uuid
  linkId : String
  deriving DecidableEq

/-- The `NetworkEvent` of the log. -/
structure NetworkEventStep where
  link : Option LinkEventPayload
  node : Option NodeEventPayload
  deriving DecidableEq

inductive SimulationStepKind
  /-- The packet is in one of the network nodes. -/
  | packetInNode (s : PacketInNode)
  /-- The packet was dropped by one of the network nodes. -/
  | packetDropped (s : PacketDropped)
  /-- The packet was lost while in transit (i.e. the link went down). -/
  | packetLostInTransit (s : PacketLostInTransit)
  /-- The packet was duplicated as a consequence of an injected failure. -/
  | packetDuplicated (s : GenericPacketEvent)
  /-- The packet has an extra delay as a consequence of an injected failure. -/
  | packetExtraDelay (s : PacketHasExtraDelay)
  /-- The packet is marked with an ECN codepoint as a consequence of an injected failure. -/
  | packetCongestionEvent (s : GenericPacketEvent)
  /-- The packet is being transferred over a link. -/
  | packetInTransit (s : PacketInTransit)
  /-- The packet has been delivered to an application. -/
  | packetDeliveredToApplication (s : GenericPacketEvent)
  /-- A network event happened. -/
  | networkEvent (e : NetworkEventStep)
  deriving DecidableEq

structure SimulationStep where
  relativeTime : Nat
  kind : SimulationStepKind
  deriving DecidableEq

end QuicWorkbench
