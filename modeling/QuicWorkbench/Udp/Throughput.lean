import QuicWorkbench.Network.Application
import QuicWorkbench.Tracing.Verifier

/-!
# The throughput test

The server of the test notes when packets arrive, and how many bytes they have. The throughput is smoothed by a window of
100 ms; its maximum is what the test reports. The client sends the bytes of an interval at once, in packets as large as
possible, and then sleeps until the next interval. `World` is the network together with the tasks of the test.
-/

namespace QuicWorkbench
namespace Throughput

def windowDuration : Nat := Duration.fromMillis 100

/-- The variables of the loop over the packets that have arrived. -/
structure Smoothing where
  /-- The deque, front first: the arrival times and the bytes. -/
  window : List (Nat × Nat) := []
  bytesInWindow : Nat := 0
  maxSmoothedThroughputBps : Nat := 0

/-- Remove throughput that's no longer in the window. The loop is the one of `ReplayedLink`. -/
def evict (arrivalTime : Nat) (window : List (Nat × Nat)) (bytesInWindow : Nat) : Option (List (Nat × Nat) × Nat) :=
  ReplayedLink.evict windowDuration arrivalTime window bytesInWindow

/-- An iteration; `none` is an underflow. -/
def Smoothing.add (s : Smoothing) (arrivalTime bytes : Nat) : Option Smoothing := do
  let (window, bytesInWindow) ← evict arrivalTime s.window s.bytesInWindow
  -- add this packet to the window
  let window := window ++ [(arrivalTime, bytes)]
  let bytesInWindow := bytesInWindow + bytes
  let smoothedThroughputBps := bytesInWindow * 8 * 10
  pure
    { window
      bytesInWindow
      maxSmoothedThroughputBps := max s.maxSmoothedThroughputBps smoothedThroughputBps }

/-- The maximum that the test prints for the packets that have arrived. -/
def maxSmoothedThroughputBps (packets : List (Nat × Nat)) : Option Nat :=
  (packets.foldlM (fun (s : Smoothing) packet => s.add packet.1 packet.2) {}).map Smoothing.maxSmoothedThroughputBps

structure Options where
  serverIp : IpAddr
  clientIp : IpAddr
  duration : Nat
  sendBps : Option Nat

/-- The bitrate of the client: by default the doubled bandwidth of the fastest link. `none` is a panic: there are no links, or
the doubled bandwidth overflows, even where it is not used (in a debug build; a release build wraps). -/
def sendBps (o : Options) (spec : NetworkSpec) : Option Nat := do
  let maxLinkBps ← (spec.links.map (·.bandwidthBps)).max?
  if 2 * maxLinkBps ≤ u64Max then some (o.sendBps.getD (2 * maxLinkBps)) else none

def sendIntervalMs : Nat := 50

def sendBytesPerInterval (sendBps : Nat) : Nat := sendBps / 8 / (1000 / sendIntervalMs)

def maxBytesPerTransmit : Nat := 1200

inductive Sender
  /-- The sleep before the next packets. -/
  | sleeping (deadline : Nat)
  | done
  | panicked
  deriving DecidableEq

inductive Main
  | sleeping (deadline : Nat)
  /-- The test is cancelled; the task of the server is awaited. -/
  | joining
  | reported (maxSmoothedThroughputBps : Nat)
  deriving DecidableEq

structure World where
  state : State
  cancelled : Bool
  /-- The `bufs_and_meta` of the server. -/
  serverSlots : Slots
  arrivedPackets : List (Nat × Nat)
  serverDone : Bool
  sender : Sender
  main : Main

def start (o : Options) (s : State) : World :=
  { state := s
    cancelled := false
    serverSlots := .new 1200 20
    arrivedPackets := []
    serverDone := false
    sender := .sleeping s.now
    main := .sleeping (s.now + o.duration) }

variable (net : InMemoryNetwork) (o : Options) (sendBps : Nat) (server client : NodeIx)

def transmit (size : Nat) : OwnedTransmit :=
  { destination := ⟨o.serverIp, 8080⟩, ecn := none, contents := List.replicate size 0, segmentSize := none }

/-- The client's loop over the packets of an interval. `none` is an assertion that fails. -/
def sendAll (bytesLeft : Nat) (draws : Nat → Uuid × Draws) (s : State) : Option (Except State State) :=
  if h : bytesLeft = 0 then some (.ok s)
  else
    let nextPacketSizeBytes := min maxBytesPerTransmit bytesLeft
    have : bytesLeft - nextPacketSizeBytes < bytesLeft := by simp only [nextPacketSizeBytes, maxBytesPerTransmit]; omega
    match s.sendFrom net client (transmit o nextPacketSizeBytes) (draws 0).1 (draws 0).2 with
    | none => none
    | some (.error s) => some (.error s)
    | some (.ok s) => sendAll (bytesLeft - nextPacketSizeBytes) (fun k => draws (k + 1)) s
termination_by bytesLeft

/-- The server notes the packets of a read. `none` is an assertion that fails. -/
def noteAll (elapsed : Nat) : List UdpPacket → List (Nat × Nat) → Option (List (Nat × Nat))
  | [], arrivedPackets => some arrivedPackets
  | packet :: packets, arrivedPackets =>
    if packet.sourceAddr.ip ≠ o.clientIp then none
    else noteAll elapsed packets (arrivedPackets ++ [(elapsed, packet.payload.length)])

namespace World
variable (w : World)

/-- The server polls its read, unless the test is cancelled. `none` is a panic. -/
def receive : Option World :=
  if w.cancelled then some { w with serverDone := true }
  else do
    let r ← w.state.receive net server w.serverSlots
    let arrivedPackets ← noteAll o (r.state.now - net.simulationStart) (r.packets.getD []) w.arrivedPackets
    some { w with state := r.state, serverSlots := r.slots, arrivedPackets }

/-- The sender sends the packets of the next interval, once its sleep is over. -/
def send (draws : Nat → Uuid × Draws) : Option World :=
  match w.sender with
  | .done | .panicked => none
  | .sleeping deadline =>
    if w.state.now < deadline then none
    else if w.cancelled then some { w with sender := .done }
    else
      match sendAll net o client (sendBytesPerInterval sendBps) draws w.state with
      | none => none
      | some (.error state) => some { w with state, sender := .panicked }
      | some (.ok state) =>
        some { w with state, sender := .sleeping (state.now + Duration.fromMillis sendIntervalMs) }

/-- The main task cancels the test after its duration, awaits the server, and reports. `none` also is an underflow. -/
def conclude : Option World :=
  match w.main with
  | .sleeping deadline => if w.state.now < deadline then none else some { w with cancelled := true, main := .joining }
  | .joining =>
    if w.serverDone then (maxSmoothedThroughputBps w.arrivedPackets).map fun bps => { w with main := .reported bps } else none
  | .reported _ => none

end World

inductive Action
  | network (a : QuicWorkbench.Action)
  | server
  | sender (draws : Nat → Uuid × Draws)
  | main

def World.step (w : World) : Action → Option World
  | .network a => if a.isInternal then (net.step w.state a).map fun state => { w with state } else none
  | .server => if w.serverDone then none else w.receive net o server
  | .sender draws => w.send net o sendBps client draws
  | .main => w.conclude

def machine : Machine World Action := ⟨World.step net o sendBps server client⟩

end Throughput
end QuicWorkbench
