import QuicWorkbench.Lib.Sums
import QuicWorkbench.Proofs.OnePlace

/-!
# What a step makes of the node that it is about

A step that is replayed visits one node at most (`NodesVisit`). At the node it puts a packet into the buffer, takes one
out, delays one or leaves the buffer alone (`BufferOp`), and counts what it did (`Visit`). Everything that the later
modules say about nodes along a replay is derived from this.
-/

namespace QuicWorkbench

/-- What a step does to the buffer of the node that it is about. -/
inductive BufferOp
  | leave
  | put (id : Uuid) (size : Nat)
  | take (id : Uuid)
  | delay (id : Uuid) (extraDelay : Nat)
  deriving DecidableEq

def BufferOp.Applies (now : Nat) (n n' : ReplayedNode) : BufferOp → Prop
  | .leave => n'.packets = n.packets ∧ n'.bufferUsage = n.bufferUsage
  | .put id size => n.packets.lookup id = none ∧
      n'.packets = n.packets.insert id { sizeBytes := size, extraDelay := 0, arrivedAt := now } ∧
      n'.bufferUsage = n.bufferUsage + size
  | .take id => ∃ p, n.packets.lookup id = some p ∧ p.sizeBytes ≤ n.bufferUsage ∧ n'.packets = n.packets.erase id ∧
      n'.bufferUsage = n.bufferUsage - p.sizeBytes
  | .delay id extraDelay => ∃ p, n.packets.lookup id = some p ∧
      n'.packets = n.packets.insert id { p with extraDelay } ∧ n'.bufferUsage = n.bufferUsage

namespace SimulationStepKind

/-- The node that the step is about. -/
def nodeId : SimulationStepKind → Option String
  | .packetInNode s => some s.nodeId
  | .packetDropped s => some s.nodeId
  | .packetLostInTransit _ => none
  | .packetDuplicated s => some s.nodeId
  | .packetExtraDelay s => some s.nodeId
  | .packetCongestionEvent s => some s.nodeId
  | .packetInTransit s => some s.nodeId
  | .packetDeliveredToApplication s => some s.nodeId
  | .networkEvent e => e.node.map (·.nodeId)

/-- Whether the packet that the step brings comes off a link. -/
def receives (inFlight : Uuid → Bool) : SimulationStepKind → Bool
  | .packetInNode s => inFlight s.packetId
  | _ => false

/-- Whether the step creates a packet. -/
def creates (inFlight : Uuid → Bool) : SimulationStepKind → Bool
  | .packetInNode s => !inFlight s.packetId
  | _ => false

def sends : SimulationStepKind → Bool
  | .packetInTransit _ => true
  | _ => false

def delivers : SimulationStepKind → Bool
  | .packetDeliveredToApplication _ => true
  | _ => false

/-- Whether the step clears the buffer of the node that it is about. -/
def clearsBuffer : SimulationStepKind → Bool
  | .networkEvent e => e.node.any (·.clearBuffer)
  | _ => false

/-- What the step does to the buffer of the node that it is about, going by the packets in flight. A packet that is
dropped on arrival does not get into the buffer if it comes off a link, but it does if it has just been created. -/
def bufferOp (inFlight : Uuid → Bool) : SimulationStepKind → BufferOp
  | .packetInNode s =>
    if s.droppedOnArrival && inFlight s.packetId then .leave else .put s.packetId s.packetSizeBytes
  | .packetDuplicated s => .put s.packetId s.packetSizeBytes
  | .packetDropped s => .take s.packetId
  | .packetInTransit s => .take s.packetId
  | .packetDeliveredToApplication s => .take s.packetId
  | .packetExtraDelay s => .delay s.packetId s.extraDelay
  | _ => .leave

/-- The bytes of the packet, where the step says. -/
def sizeBytes : SimulationStepKind → Nat
  | .packetInNode s => s.packetSizeBytes
  | .packetDuplicated s => s.packetSizeBytes
  | .packetCongestionEvent s => s.packetSizeBytes
  | .packetDeliveredToApplication s => s.packetSizeBytes
  | _ => 0

end SimulationStepKind

namespace ReplayedNode

/-- Packets that came in, by the counters of the node; those that were created are not counted. -/
def entered (n : ReplayedNode) : Nat := n.receivedPackets.packets + n.duplicatedPackets.packets

/-- Packets that left, by the counters of the node; those that were delivered to the application are not counted. -/
def departed (n : ReplayedNode) : Nat :=
  n.sentPackets.packets + n.droppedPacketsInjected.packets + n.droppedPacketsBufferFull.packets +
    n.droppedPacketsBufferCleared.packets + n.droppedPacketsDown.packets

def bytesDeparted (n : ReplayedNode) : Nat :=
  n.sentPackets.bytes + n.droppedPacketsInjected.bytes + n.droppedPacketsBufferFull.bytes +
    n.droppedPacketsBufferCleared.bytes

/-- The counters that count a packet by the size that the step says. -/
def stepCounters (n : ReplayedNode) : List PacketStats :=
  [n.receivedPackets, n.reorderedPacketsReceived, n.droppedPacketsDown, n.duplicatedPackets, n.ecnPackets]

end ReplayedNode

/-- What a step makes of the node that it is about. -/
structure Visit (inFlight : Uuid → Bool) (kind : SimulationStepKind) (now : Nat) (n n' : ReplayedNode) : Prop where
  buffer : (kind.bufferOp inFlight).Applies now n n'
  id : n'.id = n.id
  lastBufferClear : n'.lastBufferClear = if kind.clearsBuffer then some now else n.lastBufferClear
  maxBufferUsage : n'.maxBufferUsage = n.maxBufferUsage
  received : n'.receivedPackets.packets = n.receivedPackets.packets + if kind.receives inFlight then 1 else 0
  sent : n'.sentPackets.packets = n.sentPackets.packets + if kind.sends then 1 else 0
  sentBytes : n.sentPackets.bytes ≤ n'.sentPackets.bytes
  balance : n'.entered + (if kind.creates inFlight then 1 else 0) + n.departed + n.packets.entries.length =
    n.entered + n'.departed + (if kind.delivers then 1 else 0) + n'.packets.entries.length
  bytes : n'.bytesDeparted + n'.bufferUsage ≤ n.bytesDeparted + n.bufferUsage + kind.sizeBytes
  counters : List.Forall₂ (fun c c' : PacketStats => c'.bytes ≤ c.bytes + kind.sizeBytes) n.stepCounters n'.stepCounters

/-- What a step makes of the nodes. -/
inductive NodesVisit (inFlight : Uuid → Bool) (kind : SimulationStepKind) (now : Nat) (nodes : HashMap String ReplayedNode) :
    HashMap String ReplayedNode → Prop
  | none (hid : kind.nodeId = none) : NodesVisit inFlight kind now nodes nodes
  | node {nodeId : String} {n : ReplayedNode} (n' : ReplayedNode) (hid : kind.nodeId = some nodeId)
      (hn : nodes.lookup nodeId = some n) (h : Visit inFlight kind now n n') :
      NodesVisit inFlight kind now nodes (nodes.insert nodeId n')

theorem NodesVisit.origin {inFlight : Uuid → Bool} {kind : SimulationStepKind} {now : Nat} {nodes nodes' : HashMap String ReplayedNode}
    (h : NodesVisit inFlight kind now nodes nodes') {nodeId : String} {n' : ReplayedNode} (hn' : nodes'.lookup nodeId = some n') :
    ∃ n, nodes.lookup nodeId = some n ∧
      (kind.nodeId = some nodeId ∧ Visit inFlight kind now n n' ∨ kind.nodeId ≠ some nodeId ∧ n' = n) := by
  cases h with
  | none hid => exact ⟨n', hn', .inr ⟨by simp [hid], rfl⟩⟩
  | @node visited n n'' hid hn hvisit =>
    by_cases heq : nodeId = visited
    · subst heq
      rw [AList.lookup_insert] at hn'
      obtain rfl := Option.some.inj hn'
      exact ⟨n, hn, .inl ⟨hid, hvisit⟩⟩
    · rw [AList.lookup_insert_ne heq] at hn'
      exact ⟨n', hn', .inr ⟨by simpa [hid] using Ne.symm heq, rfl⟩⟩

theorem NodesVisit.isSome_iff {inFlight : Uuid → Bool} {kind : SimulationStepKind} {now : Nat}
    {nodes nodes' : HashMap String ReplayedNode} (h : NodesVisit inFlight kind now nodes nodes') (nodeId : String) :
    (nodes'.lookup nodeId).isSome ↔ (nodes.lookup nodeId).isSome := by
  cases h with
  | none hid => rfl
  | @node visited n n'' hid hn hvisit =>
    rw [isSome_lookup_insert]
    constructor
    · rintro (h | rfl)
      · exact h
      · simp [hn]
    · exact .inl

namespace ReplayedNode
variable {n n' : ReplayedNode} {inFlight : Uuid → Bool} {now : Nat} {id : Uuid} {P : NonFatalError → Prop}

theorem length_put (p : ReplayedPacket) (h : n.packets.lookup id = none) :
    (n.packets.insert id p).entries.length = n.packets.entries.length + 1 := by
  simp only [← AList.sumOf_one, AList.sumOf_insert_of_none p h]

theorem length_take {p : ReplayedPacket} (h : n.packets.lookup id = some p) :
    (n.packets.erase id).entries.length + 1 = n.packets.entries.length := by
  simpa only [AList.sumOf_one] using AList.sumOf_erase (f := fun _ => 1) h

theorem length_delay {p : ReplayedPacket} (p' : ReplayedPacket) (h : n.packets.lookup id = some p) :
    (n.packets.insert id p').entries.length = n.packets.entries.length := by
  have := AList.sumOf_insert_of_some (f := fun _ => 1) p' h
  simp only [AList.sumOf_one] at this
  omega

/-! ### One visit for each kind of step -/

theorem visit_created {s : PacketInNode} (hflight : inFlight s.packetId = false)
    (h : (n.addPacketToBuffer s.packetId s.packetSizeBytes now).Within P n') :
    Visit inFlight (.packetInNode s) now n n' := by
  obtain ⟨-, hnone, rfl⟩ := addPacketToBuffer_within_iff.1 h
  have hlen := length_put { sizeBytes := s.packetSizeBytes, extraDelay := 0, arrivedAt := now } hnone
  constructor
  case buffer => simp [SimulationStepKind.bufferOp, hflight, BufferOp.Applies, hnone]
  case received => simp [SimulationStepKind.receives, hflight]
  case balance =>
    simp only [SimulationStepKind.creates, hflight, SimulationStepKind.delivers, entered, departed, hlen, Bool.not_false,
      if_true, Bool.false_eq_true, if_false]
    omega
  case bytes =>
    simp only [bytesDeparted, SimulationStepKind.sizeBytes]
    omega
  case counters => simp [stepCounters]
  all_goals rfl

theorem visit_received {s : PacketInNode} (hflight : inFlight s.packetId = true)
    (h : (n.packetReceived s now).Within P n') : Visit inFlight (.packetInNode s) now n n' := by
  rw [packetReceived_within_iff] at h
  have hreordered : (n.trackReceived s).reorderedPacketsReceived.bytes ≤ n.reorderedPacketsReceived.bytes + s.packetSizeBytes := by
    simp only [trackReceived]
    split_ifs
    · exact Nat.le_refl _
    · exact Nat.le_add_right ..
  by_cases hdropped : s.droppedOnArrival
  · rw [if_pos hdropped] at h
    obtain ⟨-, rfl⟩ := h
    constructor
    case buffer => simp [SimulationStepKind.bufferOp, hflight, hdropped, BufferOp.Applies, trackReceived]
    case received => simp [SimulationStepKind.receives, hflight, trackReceived, PacketStats.trackOne]
    case balance =>
      simp only [SimulationStepKind.creates, hflight, SimulationStepKind.delivers, entered, departed, trackReceived,
        PacketStats.trackOne, Bool.not_true, Bool.false_eq_true, if_false]
      omega
    case bytes => exact Nat.le_add_right ..
    case counters => simpa [stepCounters, trackReceived, PacketStats.trackOne, SimulationStepKind.sizeBytes] using hreordered
    all_goals rfl
  · rw [if_neg hdropped] at h
    obtain ⟨-, hnone, rfl⟩ := addPacketToBuffer_within_iff.1 h
    replace hnone : n.packets.lookup s.packetId = none := hnone
    have hlen := length_put { sizeBytes := s.packetSizeBytes, extraDelay := 0, arrivedAt := now } hnone
    constructor
    case buffer =>
      simp only [SimulationStepKind.bufferOp, hdropped, Bool.false_and, Bool.false_eq_true, if_false]
      exact ⟨hnone, rfl, rfl⟩
    case received => simp [SimulationStepKind.receives, hflight, trackReceived, PacketStats.trackOne]
    case balance =>
      simp only [SimulationStepKind.creates, hflight, SimulationStepKind.delivers, entered, departed, trackReceived,
        PacketStats.trackOne, Bool.not_true, Bool.false_eq_true, if_false]
      rw [hlen]
      omega
    case bytes =>
      simp only [bytesDeparted, SimulationStepKind.sizeBytes, trackReceived]
      omega
    case counters => simpa [stepCounters, trackReceived, PacketStats.trackOne, SimulationStepKind.sizeBytes] using hreordered
    all_goals rfl

theorem visit_duplicated {s : GenericPacketEvent} (h : (n.packetDuplicated s now).Within P n') :
    Visit inFlight (.packetDuplicated s) now n n' := by
  obtain ⟨-, hnone, rfl⟩ := addPacketToBuffer_within_iff.1 h
  have hlen := length_put { sizeBytes := s.packetSizeBytes, extraDelay := 0, arrivedAt := now } hnone
  constructor
  case buffer => exact ⟨hnone, rfl, rfl⟩
  case balance =>
    simp only [SimulationStepKind.creates, SimulationStepKind.delivers, entered, departed, hlen, PacketStats.trackOne,
      Bool.false_eq_true, if_false]
    omega
  case bytes =>
    simp only [bytesDeparted, SimulationStepKind.sizeBytes]
    omega
  case counters => simp [stepCounters, PacketStats.trackOne, SimulationStepKind.sizeBytes]
  all_goals rfl

theorem visit_dropped {s : PacketDropped} (h : (n.packetDropped s).Within P n') :
    Visit inFlight (.packetDropped s) now n n' := by
  obtain ⟨p, hp, hle, rfl⟩ := packetDropped_within_iff.1 h
  have hlen := length_take hp
  cases hreason : s.reason
  all_goals
    constructor
    case buffer => exact ⟨p, hp, hle, rfl, rfl⟩
    case balance =>
      simp only [SimulationStepKind.creates, SimulationStepKind.delivers, entered, departed, PacketStats.trackOne,
        Bool.false_eq_true, if_false]
      omega
    case bytes =>
      simp only [bytesDeparted, SimulationStepKind.sizeBytes, PacketStats.trackOne]
      omega
    case counters => simp [stepCounters, SimulationStepKind.sizeBytes]
    all_goals rfl

theorem visit_sent {s : PacketInTransit} {p : ReplayedPacket} (h : (n.packetSent s.packetId).Within P (p, n')) :
    Visit inFlight (.packetInTransit s) now n n' := by
  obtain ⟨-, -, hp, hle, rfl⟩ := packetSent_within_iff.1 h
  have hlen := length_take hp
  constructor
  case buffer => exact ⟨p, hp, hle, rfl, rfl⟩
  case sentBytes => exact Nat.le_add_right ..
  case balance =>
    simp only [SimulationStepKind.creates, SimulationStepKind.delivers, entered, departed, PacketStats.trackOne,
      Bool.false_eq_true, if_false]
    omega
  case bytes =>
    simp only [bytesDeparted, SimulationStepKind.sizeBytes, PacketStats.trackOne]
    omega
  case counters => simp [stepCounters, SimulationStepKind.sizeBytes]
  all_goals rfl

theorem visit_delivered {s : GenericPacketEvent} (h : (n.packetDeliveredToAppLayer s.packetId).Within P n') :
    Visit inFlight (.packetDeliveredToApplication s) now n n' := by
  obtain ⟨p, hp, hle, rfl⟩ := packetDeliveredToAppLayer_within_iff.1 h
  have hlen := length_take hp
  constructor
  case buffer => exact ⟨p, hp, hle, rfl, rfl⟩
  case balance =>
    simp only [SimulationStepKind.creates, SimulationStepKind.delivers, entered, departed, Bool.false_eq_true, if_false, if_true]
    omega
  case bytes =>
    simp only [bytesDeparted]
    omega
  case counters => simp [stepCounters]
  all_goals rfl

theorem visit_delayed {s : PacketHasExtraDelay} (h : (n.packetHasExtraDelay s.packetId s.extraDelay).Within P n') :
    Visit inFlight (.packetExtraDelay s) now n n' := by
  obtain ⟨p, hp, rfl⟩ := packetHasExtraDelay_within_iff.1 h
  have hlen := length_delay { p with extraDelay := s.extraDelay } hp
  constructor
  case buffer => exact ⟨p, hp, rfl, rfl⟩
  case balance =>
    simp only [SimulationStepKind.creates, SimulationStepKind.delivers, entered, departed, hlen, Bool.false_eq_true, if_false]
    omega
  case bytes => exact Nat.le_add_right ..
  case counters => simp [stepCounters]
  all_goals rfl

theorem visit_marked (n : ReplayedNode) (s : GenericPacketEvent) :
    Visit inFlight (.packetCongestionEvent s) now n (n.packetEcn s) := by
  constructor
  case buffer => exact ⟨rfl, rfl⟩
  case bytes => exact Nat.le_add_right ..
  case counters => simp [stepCounters, packetEcn, PacketStats.trackOne, SimulationStepKind.sizeBytes]
  all_goals rfl

theorem visit_event (n : ReplayedNode) {e : NetworkEventStep} {payload : NodeEventPayload} (he : e.node = some payload) :
    Visit inFlight (.networkEvent e) now n (n.handleEvent payload now) := by
  obtain ⟨lastDown, heq⟩ := n.handleEvent_eq payload now
  rw [heq]
  constructor
  case buffer => exact ⟨rfl, rfl⟩
  case lastBufferClear => simp [SimulationStepKind.clearsBuffer, he]
  case bytes => exact Nat.le_add_right ..
  case counters => simp [stepCounters]
  all_goals rfl

/-- How the node that a step is about is handled when the step is replayed. -/
inductive Handled (P : NonFatalError → Prop) (inFlight : Uuid → Bool) (now : Nat) (n n' : ReplayedNode) :
    SimulationStepKind → Prop
  | received (s : PacketInNode) (hflight : inFlight s.packetId = true) (h : (n.packetReceived s now).Within P n') :
      Handled P inFlight now n n' (.packetInNode s)
  | created (s : PacketInNode) (hflight : inFlight s.packetId = false)
      (h : (n.addPacketToBuffer s.packetId s.packetSizeBytes now).Within P n') : Handled P inFlight now n n' (.packetInNode s)
  | duplicated (s : GenericPacketEvent) (h : (n.packetDuplicated s now).Within P n') :
      Handled P inFlight now n n' (.packetDuplicated s)
  | dropped (s : PacketDropped) (h : (n.packetDropped s).Within P n') : Handled P inFlight now n n' (.packetDropped s)
  | sent (s : PacketInTransit) (p : ReplayedPacket) (h : (n.packetSent s.packetId).Within P (p, n')) :
      Handled P inFlight now n n' (.packetInTransit s)
  | delivered (s : GenericPacketEvent) (h : (n.packetDeliveredToAppLayer s.packetId).Within P n') :
      Handled P inFlight now n n' (.packetDeliveredToApplication s)
  | delayed (s : PacketHasExtraDelay) (h : (n.packetHasExtraDelay s.packetId s.extraDelay).Within P n') :
      Handled P inFlight now n n' (.packetExtraDelay s)
  | marked (s : GenericPacketEvent) (h : n' = n.packetEcn s) : Handled P inFlight now n n' (.packetCongestionEvent s)
  | event (e : NetworkEventStep) (payload : NodeEventPayload) (he : e.node = some payload)
      (h : n' = n.handleEvent payload now) : Handled P inFlight now n n' (.networkEvent e)

theorem Handled.visit {kind : SimulationStepKind} (h : Handled P inFlight now n n' kind) : Visit inFlight kind now n n' := by
  cases h with
  | received s hflight h => exact visit_received hflight h
  | created s hflight h => exact visit_created hflight h
  | duplicated s h => exact visit_duplicated h
  | dropped s h => exact visit_dropped h
  | sent s p h => exact visit_sent h
  | delivered s h => exact visit_delivered h
  | delayed s h => exact visit_delayed h
  | marked s h => exact h ▸ visit_marked n s
  | event e payload he h => exact h ▸ n.visit_event he

end ReplayedNode

namespace SimulationVerifier
variable {v : SimulationVerifier} {r r' : Replay} {now : Nat} {P : NonFatalError → Prop}

theorem replayKind_handles {kind : SimulationStepKind} (h : (v.replayKind r now kind).Within P r') :
    (kind.nodeId = none ∧ r'.nodes = r.nodes) ∨ ∃ nodeId n n', kind.nodeId = some nodeId ∧ r.nodes.lookup nodeId = some n ∧
      r'.nodes = r.nodes.insert nodeId n' ∧ ReplayedNode.Handled P (fun id => (r.inFlightPackets.lookup id).isSome) now n n' kind := by
  cases kind with
  | packetInNode s =>
    right
    cases hf : r.inFlightPackets.lookup s.packetId with
    | some f =>
      obtain ⟨metadata, link, n, n', -, -, -, -, -, -, hn, hreceived, rfl⟩ := (packetInNode_within_iff_of_inFlight hf).1 h
      exact ⟨s.nodeId, n, n', rfl, hn, rfl, .received s (by simp [hf]) hreceived⟩
    | none =>
      obtain ⟨n, n', -, hn, hadded, rfl⟩ := (packetInNode_within_iff_of_created hf).1 h
      exact ⟨s.nodeId, n, n', rfl, hn, rfl, .created s (by simp [hf]) hadded⟩
  | packetDuplicated s =>
    obtain ⟨n, n', hn, hadded, rfl⟩ := packetDuplicated_within_iff.1 h
    exact .inr ⟨s.nodeId, n, n', rfl, hn, rfl, .duplicated s hadded⟩
  | packetDropped s =>
    obtain ⟨n, n', hn, hdropped, rfl⟩ := packetDropped_within_iff.1 h
    exact .inr ⟨s.nodeId, n, n', rfl, hn, rfl, .dropped s hdropped⟩
  | packetLostInTransit s =>
    obtain ⟨inFlightPackets, statsByLink, rfl⟩ := exists_of_packetLostInTransit h
    exact .inl ⟨rfl, rfl⟩
  | packetExtraDelay s =>
    obtain ⟨n, n', hn, hdelay, rfl⟩ := packetExtraDelay_within_iff.1 h
    exact .inr ⟨s.nodeId, n, n', rfl, hn, rfl, .delayed s hdelay⟩
  | packetCongestionEvent s =>
    obtain ⟨n, hn, rfl⟩ := packetCongestionEvent_within_iff.1 h
    exact .inr ⟨s.nodeId, n, n.packetEcn s, rfl, hn, rfl, .marked s rfl⟩
  | packetInTransit s =>
    obtain ⟨n, packet, n', metadata, link, link', usage, hn, hsent, -, -, -, -, -, -, rfl⟩ := packetInTransit_within_iff.1 h
    exact .inr ⟨s.nodeId, n, n', rfl, hn, rfl, .sent s packet hsent⟩
  | packetDeliveredToApplication s =>
    obtain ⟨n, n', hn, hdelivered, rfl⟩ := packetDeliveredToApplication_within_iff.1 h
    exact .inr ⟨s.nodeId, n, n', rfl, hn, rfl, .delivered s hdelivered⟩
  | networkEvent e =>
    obtain ⟨links, ⟨hnode, rfl⟩ | ⟨payload, n, hnode, hn, rfl⟩⟩ := exists_of_networkEvent h
    · exact .inl ⟨by simp [SimulationStepKind.nodeId, hnode], rfl⟩
    · exact .inr ⟨payload.nodeId, n, n.handleEvent payload now, by simp [SimulationStepKind.nodeId, hnode], hn, rfl,
        .event e payload hnode rfl⟩

theorem replayKind_visits {kind : SimulationStepKind} (h : (v.replayKind r now kind).Within P r') :
    NodesVisit (fun id => (r.inFlightPackets.lookup id).isSome) kind now r.nodes r'.nodes := by
  rcases replayKind_handles h with ⟨hid, hnodes⟩ | ⟨nodeId, n, n', hid, hn, hnodes, hhandled⟩
  · rw [hnodes]
    exact .none hid
  · rw [hnodes]
    exact .node n' hid hn hhandled.visit

end SimulationVerifier

end QuicWorkbench
