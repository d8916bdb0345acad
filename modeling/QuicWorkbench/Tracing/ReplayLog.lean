import QuicWorkbench.Lib.Json
import QuicWorkbench.Tracing.SimulationStep

/-!
# The replay log as JSON

What the derived and hand-written implementations of `Serialize` and `Deserialize` do with the steps of the log:
which names fields and variants have, which fields are skipped, and how durations are written. How ids are written is left to
the parameter `uuid`.
-/

namespace QuicWorkbench

/-- The text form of ids, which is that of the crate `uuid`: what is displayed is read back. -/
structure UuidFormat where
  display : Uuid → String
  fromStr : String → Option Uuid
  fromStr_display : ∀ id, fromStr (display id) = some id

open Serde (string bool float u64 usize duration durationNanoSeconds unitVariants displayFromStr)
open Fields (field fieldIfSome skipIf object)

def UpdateNodeStatus.name : UpdateNodeStatus → String
  | .up => "up"
  | .down => "down"

def UpdateLinkStatus.name : UpdateLinkStatus → String
  | .up => "up"
  | .down => "down"

def DropReason.name : DropReason → String
  | .random => "Random"
  | .bufferFull => "BufferFull"
  | .bufferCleared => "BufferCleared"

def UpdateNodeStatus.serde : Serde UpdateNodeStatus := unitVariants name [.up, .down]

def UpdateLinkStatus.serde : Serde UpdateLinkStatus := unitVariants name [.up, .down]

def DropReason.serde : Serde DropReason := unitVariants name [.random, .bufferFull, .bufferCleared]

def UuidFormat.serde (uuid : UuidFormat) : Serde Uuid := displayFromStr uuid.display uuid.fromStr

def NodeEventPayload.serde : Serde NodeEventPayload where
  serialize p := object [field "node_id" string p.nodeId, fieldIfSome "status" UpdateNodeStatus.serde p.status,
    skipIf (!p.clearBuffer) (field "clear_buffer" bool p.clearBuffer)]
  deserialize v := do
    let fields ← v.asObject
    let nodeId ← fields.required "node_id" string
    let status ← fields.optional "status" UpdateNodeStatus.serde
    let clearBuffer ← fields.required "clear_buffer" bool
    return { nodeId, status, clearBuffer }

def LinkEventPayload.serde : Serde LinkEventPayload where
  serialize p := object [field "linkId" string p.linkId, fieldIfSome "status" UpdateLinkStatus.serde p.status,
    fieldIfSome "bandwidthBps" u64 p.bandwidthBps, fieldIfSome "delay" duration p.delay,
    fieldIfSome "extraDelay" duration p.extraDelay, fieldIfSome "extraDelayRatio" float p.extraDelayRatio,
    fieldIfSome "packetDuplicationRatio" float p.packetDuplicationRatio,
    fieldIfSome "packetLossRatio" float p.packetLossRatio, fieldIfSome "congestionEventRatio" float p.congestionEventRatio]
  deserialize v := do
    let fields ← v.asObject
    let linkId ← fields.required "linkId" string
    let status ← fields.optional "status" UpdateLinkStatus.serde
    let bandwidthBps ← fields.optional "bandwidthBps" u64
    let delay ← fields.optional "delay" duration
    let extraDelay ← fields.optional "extraDelay" duration
    let extraDelayRatio ← fields.optional "extraDelayRatio" float
    let packetDuplicationRatio ← fields.optional "packetDuplicationRatio" float
    let packetLossRatio ← fields.optional "packetLossRatio" float
    let congestionEventRatio ← fields.optional "congestionEventRatio" float
    return { linkId, status, bandwidthBps, delay, extraDelay, extraDelayRatio, packetDuplicationRatio, packetLossRatio,
             congestionEventRatio }

def NetworkEventStep.serde : Serde NetworkEventStep where
  serialize e := object [fieldIfSome "link" LinkEventPayload.serde e.link, fieldIfSome "node" NodeEventPayload.serde e.node]
  deserialize v := do
    let fields ← v.asObject
    let link ← fields.optional "link" LinkEventPayload.serde
    let node ← fields.optional "node" NodeEventPayload.serde
    return { link, node }

def GenericPacketEvent.serde (uuid : UuidFormat) : Serde GenericPacketEvent where
  serialize s := object [field "packet_id" uuid.serde s.packetId, field "packet_number" u64 s.packetNumber,
    field "packet_size_bytes" usize s.packetSizeBytes, field "node_id" string s.nodeId]
  deserialize v := do
    let fields ← v.asObject
    let packetId ← fields.required "packet_id" uuid.serde
    let packetNumber ← fields.required "packet_number" u64
    let packetSizeBytes ← fields.required "packet_size_bytes" usize
    let nodeId ← fields.required "node_id" string
    return { packetId, packetNumber, packetSizeBytes, nodeId }

def PacketInNode.serde (uuid : UuidFormat) : Serde PacketInNode where
  serialize s := object [field "packet_id" uuid.serde s.packetId, field "packet_number" u64 s.packetNumber,
    field "packet_size_bytes" usize s.packetSizeBytes, field "node_id" string s.nodeId,
    skipIf (!s.droppedOnArrival) (field "dropped_on_arrival" bool s.droppedOnArrival)]
  deserialize v := do
    let fields ← v.asObject
    let packetId ← fields.required "packet_id" uuid.serde
    let packetNumber ← fields.required "packet_number" u64
    let packetSizeBytes ← fields.required "packet_size_bytes" usize
    let nodeId ← fields.required "node_id" string
    let droppedOnArrival ← fields.required "dropped_on_arrival" bool
    return { packetId, packetNumber, packetSizeBytes, nodeId, droppedOnArrival }

def PacketDropped.serde (uuid : UuidFormat) : Serde PacketDropped where
  serialize s := object [field "packet_id" uuid.serde s.packetId, field "node_id" string s.nodeId,
    field "reason" DropReason.serde s.reason]
  deserialize v := do
    let fields ← v.asObject
    let packetId ← fields.required "packet_id" uuid.serde
    let nodeId ← fields.required "node_id" string
    let reason ← fields.required "reason" DropReason.serde
    return { packetId, nodeId, reason }

def PacketHasExtraDelay.serde (uuid : UuidFormat) : Serde PacketHasExtraDelay where
  serialize s := object [field "packet_id" uuid.serde s.packetId, field "node_id" string s.nodeId,
    field "extra_delay_ns" durationNanoSeconds s.extraDelay]
  deserialize v := do
    let fields ← v.asObject
    let packetId ← fields.required "packet_id" uuid.serde
    let nodeId ← fields.required "node_id" string
    let extraDelay ← fields.required "extra_delay_ns" durationNanoSeconds
    return { packetId, nodeId, extraDelay }

def PacketInTransit.serde (uuid : UuidFormat) : Serde PacketInTransit where
  serialize s := object [field "packet_id" uuid.serde s.packetId, field "node_id" string s.nodeId,
    field "link_id" string s.linkId]
  deserialize v := do
    let fields ← v.asObject
    let packetId ← fields.required "packet_id" uuid.serde
    let nodeId ← fields.required "node_id" string
    let linkId ← fields.required "link_id" string
    return { packetId, nodeId, linkId }

def PacketLostInTransit.serde (uuid : UuidFormat) : Serde PacketLostInTransit where
  serialize s := object [field "packet_id" uuid.serde s.packetId, field "link_id" string s.linkId]
  deserialize v := do
    let fields ← v.asObject
    let packetId ← fields.required "packet_id" uuid.serde
    let linkId ← fields.required "link_id" string
    return { packetId, linkId }

namespace SimulationStepKind
variable (uuid : UuidFormat)

/-- The name of the variant, and its content. -/
def content : SimulationStepKind → String × Option Json
  | .packetInNode s => ("packetInNode", (PacketInNode.serde uuid).serialize s)
  | .packetDropped s => ("packetDropped", (PacketDropped.serde uuid).serialize s)
  | .packetLostInTransit s => ("packetLostInTransit", (PacketLostInTransit.serde uuid).serialize s)
  | .packetDuplicated s => ("packetDuplicated", (GenericPacketEvent.serde uuid).serialize s)
  | .packetExtraDelay s => ("packetExtraDelay", (PacketHasExtraDelay.serde uuid).serialize s)
  | .packetCongestionEvent s => ("packetCongestionEvent", (GenericPacketEvent.serde uuid).serialize s)
  | .packetInTransit s => ("packetInTransit", (PacketInTransit.serde uuid).serialize s)
  | .packetDeliveredToApplication s => ("packetDeliveredToApplication", (GenericPacketEvent.serde uuid).serialize s)
  | .networkEvent e => ("networkEvent", NetworkEventStep.serde.serialize e)

/-- Adjacently tagged: the name of the variant is the field `type`, its content the field `data`. -/
def serialize (kind : SimulationStepKind) : Option Fields :=
  (kind.content uuid).2.map fun data => [("type", .string (kind.content uuid).1), ("data", data)]

def deserialize (fields : Fields) : Option SimulationStepKind := do
  let variant ← fields.required "type" string
  match variant with
  | "packetInNode" => (fields.required "data" (PacketInNode.serde uuid)).map .packetInNode
  | "packetDropped" => (fields.required "data" (PacketDropped.serde uuid)).map .packetDropped
  | "packetLostInTransit" => (fields.required "data" (PacketLostInTransit.serde uuid)).map .packetLostInTransit
  | "packetDuplicated" => (fields.required "data" (GenericPacketEvent.serde uuid)).map .packetDuplicated
  | "packetExtraDelay" => (fields.required "data" (PacketHasExtraDelay.serde uuid)).map .packetExtraDelay
  | "packetCongestionEvent" => (fields.required "data" (GenericPacketEvent.serde uuid)).map .packetCongestionEvent
  | "packetInTransit" => (fields.required "data" (PacketInTransit.serde uuid)).map .packetInTransit
  | "packetDeliveredToApplication" => (fields.required "data" (GenericPacketEvent.serde uuid)).map .packetDeliveredToApplication
  | "networkEvent" => (fields.required "data" NetworkEventStep.serde).map .networkEvent
  | _ => none

end SimulationStepKind

/-- The fields of the kind are flattened into those of the step. -/
def SimulationStep.serde (uuid : UuidFormat) : Serde SimulationStep where
  serialize step := object [field "relative_time_ns" durationNanoSeconds step.relativeTime, step.kind.serialize uuid]
  deserialize v := do
    let fields ← v.asObject
    let relativeTime ← fields.required "relative_time_ns" durationNanoSeconds
    let kind ← SimulationStepKind.deserialize uuid (fields.filter fun f => f.1 ≠ "relative_time_ns")
    return { relativeTime, kind }

end QuicWorkbench
