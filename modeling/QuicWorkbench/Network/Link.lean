import QuicWorkbench.Network.Event
import QuicWorkbench.Network.InboundQueue

/-!
# Links

`NetworkLink` holds the fields of the source's `NetworkLink` that change after its construction; the
others are those of its `NetworkLinkSpec`. Nodes and links are named by their positions in the
network (`Arc` identity). The up-notifier of a link or node that is down is a oneshot channel, named
by its position in the list of all oneshot channels, which says whether it was signalled.
-/

namespace QuicWorkbench

/-- Position of a node in the network. -/
abbrev NodeIx := Nat

/-- Position of a link in the network. -/
abbrev LinkIx := Nat

/-- The oneshot channels created so far: signalled or not. -/
abbrev Oneshots := List Bool

def Oneshots.signalled (os : Oneshots) (c : Nat) : Bool := os.getD c false

inductive LinkStatus
  | up
  | down (upRx : Nat)
  deriving DecidableEq

namespace LinkStatus

def isDown : LinkStatus → Bool
  | .up => false
  | .down _ => true

def notifierForLinkUp : LinkStatus → Option Nat
  | .up => none
  | .down upRx => some upRx

/-- The status as an event reports it. -/
def toUpdate : LinkStatus → UpdateLinkStatus
  | .up => .up
  | .down _ => .down

end LinkStatus

/-! ### The pacer -/

/-- Ensures that only a single packet at a time is being sent. `lastSend` is the instant at which the
last packet is sent completely. -/
structure PacketPacer where
  bandwidthBps : Nat
  lastSend : Option Nat
  deriving DecidableEq

namespace PacketPacer

def new (bandwidthBps : Nat) : PacketPacer := { bandwidthBps, lastSend := none }

def canSend (p : PacketPacer) (now : Nat) : Bool :=
  match p.lastSend with
  | none => true
  | some sendDone => sendDone ≤ now

def durationUntilCanSend (p : PacketPacer) (now : Nat) : Nat :=
  match p.lastSend with
  | none => 0
  | some sendDone => sendDone - now

/-- `(bits as f64 / bandwidth * 1000.0).ceil() as u64` in exact arithmetic; the rounding of the `f64` may take a whole number of
milliseconds to the next one (6448 bits at 3200 bps). Without bandwidth the quotient is infinite (or not a number for 0 bits),
which the cast saturates. -/
def sendDurationMs (bits bandwidthBps : Nat) : Nat :=
  if bandwidthBps = 0 then (if bits = 0 then 0 else u64Max)
  else (bits * 1000 + (bandwidthBps - 1)) / bandwidthBps

def trackSend (p : PacketPacer) (now packetSizeBytes : Nat) : PacketPacer :=
  let packetSizeBits := packetSizeBytes * 8
  { p with lastSend := some (now + Duration.fromMillis (sendDurationMs packetSizeBits p.bandwidthBps)) }

end PacketPacer

/-! ### Packets waiting to be sent -/

structure PacketAnomalies where
  congestionExperienced : Bool
  extraDelay : Nat
  deriving DecidableEq

/-- `stay` numbers the packet's stays at nodes: it is assigned when the outbound buffer accepts the
packet, and names the watch channel that the copies of the packet share. -/
structure BufferedPacket where
  inNodeSince : Nat
  data : InTransitData
  stay : Nat
  deriving DecidableEq

structure OutgoingPacket where
  inNodeSince : Nat
  srcNode : NodeIx
  data : InTransitData
  anomalies : PacketAnomalies
  preferredLinks : List LinkIx
  /-- `handled_tx` and `handled_rx`: see `State.handled`. -/
  stay : Nat
  deriving DecidableEq

/-! ### The link -/

structure NetworkLink where
  /-- Packets currently in flight from the source to the destination. -/
  inTransit : InboundQueue
  /-- Packets waiting to be sent (i.e., source node up + link up + enough bandwidth). -/
  outgoingQueue : List OutgoingPacket
  pacer : PacketPacer
  status : LinkStatus
  lastDown : Option Nat

namespace NetworkLink

def new (l : NetworkLinkSpec) : NetworkLink :=
  { status := .up
    lastDown := none
    inTransit := .new
    outgoingQueue := []
    pacer := .new l.bandwidthBps }

def wasDownAfter (l : NetworkLink) (instant : Nat) : Bool :=
  match l.lastDown with
  | some down => instant < down
  | none => false

/-- The status is moved out, with `Up` in its place until the match puts one back. -/
def updateStatus (l : NetworkLink) (oneshots : Oneshots) (update : UpdateLinkStatus) (now : Nat) :
    NetworkLink × Oneshots :=
  let status := l.status
  let l := { l with status := .up }
  match status, update with
  -- no update, restore the original status
  | .down upTx, .down => ({ l with status := .down upTx }, oneshots)
  | .up, .up => ({ l with status := .up }, oneshots)
  -- packets in flight are dropped by the forwarding code, the others stay in the buffer
  | .up, .down => ({ l with status := .down oneshots.length, lastDown := some now }, oneshots ++ [false])
  -- notify anyone waiting that the link is back up
  | .down upTx, .up => ({ l with status := .up }, oneshots.set upTx true)

/-- What is moved out is put back. -/
theorem updateStatus_eq (l : NetworkLink) (oneshots : Oneshots) (update : UpdateLinkStatus) (now : Nat) :
    l.updateStatus oneshots update now =
      match l.status, update with
      | .down _, .down | .up, .up => (l, oneshots)
      | .up, .down => ({ l with status := .down oneshots.length, lastDown := some now }, oneshots ++ [false])
      | .down upTx, .up => ({ l with status := .up }, oneshots.set upTx true) := by
  obtain ⟨inTransit, outgoingQueue, pacer, status, lastDown⟩ := l
  cases status <;> cases update <;> rfl

/-- `permit` says whether the semaphore of `sleep_until_ready_to_send` could be acquired. -/
def hasBandwidthAvailable (l : NetworkLink) (permit : Bool) (now : Nat) : Bool :=
  if !permit || l.status.isDown then false else l.pacer.canSend now

/-- The congestion mark of `send`; `none` where its assertion fails. -/
def applyCongestion (anomalies : PacketAnomalies) (data : InTransitData) : Option InTransitData :=
  if anomalies.congestionExperienced then
    -- the Quinn-provided transmit must indicate support for ECN
    if data.transmit.ecn.any (fun c => c.toBits == 0b10 || c.toBits == 0b01) then
      some { data with transmit := { data.transmit with ecn := some .ce } }
    else none
  else some data

end NetworkLink

end QuicWorkbench
