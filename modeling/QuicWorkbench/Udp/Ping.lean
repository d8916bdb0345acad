import QuicWorkbench.Network.Application

/-!
# Ping

The client sends a numbered ping every interval, and the server echoes what it receives. A ping is in flight until its echo
comes, or is lost when its deadline passes first. `World` is the network together with the tasks of the test; each action is
what one task does between two of its awaits, at any time after it could have gone on. What the test prints are `lines`.
-/

namespace QuicWorkbench
namespace Ping

structure Options where
  serverIp : IpAddr
  clientIp : IpAddr
  deadline : Nat
  interval : Nat

/-- `u64::to_le_bytes` -/
def toLeBytes (n : Nat) : List UInt8 := (List.range 8).map fun k => (n / 256 ^ k).toUInt8

/-- `u64::from_le_bytes`, behind the conversion to an array; `none` is a panic. -/
def fromLeBytes (bytes : List UInt8) : Option Nat :=
  if bytes.length = 8 then some (bytes.foldr (fun byte n => byte.toNat + 256 * n) 0) else none

/-- What the test prints about a ping, with the instants of the two events. -/
inductive Line
  | received (pingNr sent received : Nat)
  | lost (pingNr sent lost : Nat)
  deriving DecidableEq

inductive Sender
  /-- The sleep before the next ping. -/
  | sleeping (deadline : Nat)
  | panicked
  deriving DecidableEq

structure World where
  state : State
  /-- The `bufs_and_meta` of the server. -/
  serverSlots : Slots
  serverPanicked : Bool
  sender : Sender
  pingNr : Nat
  inFlight : HashMap Nat Nat
  /-- The tasks that sleep until the deadlines of their pings. -/
  deadlines : List (Nat × Nat)
  lost : List Nat
  /-- The `bufs_and_meta` of the client. -/
  clientSlots : Slots
  lines : List Line

def start (s : State) : World :=
  { state := s
    serverSlots := .new 1200 5
    serverPanicked := false
    sender := .sleeping s.now
    pingNr := 0
    inFlight := ∅
    deadlines := []
    lost := []
    clientSlots := .new 1200 5
    lines := [] }

variable (net : InMemoryNetwork) (o : Options) (server client : NodeIx)

/-- The transmit with which the server echoes a packet. -/
def echo (packet : UdpPacket) : OwnedTransmit :=
  { destination := ⟨o.clientIp, 8080⟩, ecn := none, contents := packet.payload, segmentSize := none }

def ping (pingNr : Nat) : OwnedTransmit :=
  { destination := ⟨o.serverIp, 8080⟩, ecn := none, contents := toLeBytes pingNr, segmentSize := none }

/-- The server's loop over the packets of a read. `none` is an assertion that fails. -/
def echoAll : List UdpPacket → (Nat → Uuid × Draws) → State → Option (Except State State)
  | [], _, s => some (.ok s)
  | packet :: packets, draws, s =>
    if packet.sourceAddr.ip ≠ o.clientIp then none
    else
      match s.sendFrom net server (echo o packet) (draws 0).1 (draws 0).2 with
      | none => none
      | some (.error s) => some (.error s)
      | some (.ok s) => echoAll packets (fun k => draws (k + 1)) s

namespace World
variable (w : World)

/-- The server polls its read, and echoes the packets. `none` is a panic, other than that of `forward`. -/
def serve (draws : Nat → Uuid × Draws) : Option World := do
  let r ← w.state.receive net server w.serverSlots
  match ← echoAll net o server (r.packets.getD []) draws r.state with
  | .ok state => some { w with state, serverSlots := r.slots }
  | .error state => some { w with state, serverSlots := r.slots, serverPanicked := true }

/-- The sender sends the next ping, once its sleep is over. -/
def send (uuid : Uuid) (draws : Draws) : Option World :=
  match w.sender with
  | .panicked => none
  | .sleeping deadline =>
    if w.state.now < deadline then none
    else
      match w.state.sendFrom net client (ping o w.pingNr) uuid draws with
      | none => none
      | some (.error state) => some { w with state, sender := .panicked }
      | some (.ok state) =>
        let sentPingNr := w.pingNr
        let w := { w with state, inFlight := w.inFlight.insert sentPingNr state.now, pingNr := w.pingNr + 1 }
        -- the increment overflows, which panics in a debug build and wraps in a release build
        if sentPingNr = u64Max then some { w with sender := .panicked }
        else some { w with
          deadlines := w.deadlines ++ [(sentPingNr, state.now + o.deadline)]
          sender := .sleeping (state.now + o.interval) }

/-- The `k`th of the tasks that track pings as lost after the deadline has passed. -/
def passDeadline (k : Nat) : Option World :=
  match w.deadlines[k]? with
  | none => none
  | some (sentPingNr, deadline) =>
    if w.state.now < deadline then none
    else
      let w := { w with deadlines := w.deadlines.eraseIdx k }
      match w.inFlight.lookup sentPingNr with
      | none => some w
      | some pingSent => some { w with
        inFlight := w.inFlight.erase sentPingNr
        lost := w.lost ++ [sentPingNr]
        lines := w.lines ++ [.lost sentPingNr pingSent w.state.now] }

/-- The client gets a packet. `none` is a panic. -/
def receiveEcho (packet : UdpPacket) : Option World :=
  if packet.sourceAddr.ip ≠ o.serverIp then none
  else
    match fromLeBytes packet.payload with
    | none => none
    | some pingNr =>
      match w.inFlight.lookup pingNr with
      | none => some w
      | some pingSent => some { w with
        inFlight := w.inFlight.erase pingNr
        lines := w.lines ++ [.received pingNr pingSent w.state.now] }

/-- The receiver polls its read, and looks up the packets. `none` is a panic. -/
def receiveEchoes : Option World := do
  let r ← w.state.receive net client w.clientSlots
  (r.packets.getD []).foldlM (fun w packet => w.receiveEcho o packet) { w with state := r.state, clientSlots := r.slots }

end World

inductive Action
  | network (a : QuicWorkbench.Action)
  | server (draws : Nat → Uuid × Draws)
  | sender (uuid : Uuid) (draws : Draws)
  | deadline (k : Nat)
  | receiver

def World.step (w : World) : Action → Option World
  | .network a => if a.isInternal then (net.step w.state a).map fun state => { w with state } else none
  | .server draws => if w.serverPanicked then none else w.serve net o server draws
  | .sender uuid draws => w.send net o client uuid draws
  | .deadline k => w.passDeadline k
  | .receiver => w.receiveEchoes net o client

def machine : Machine World Action := ⟨World.step net o server client⟩

end Ping
end QuicWorkbench
