import QuicWorkbench.Network.Application
import QuicWorkbench.Tracing.SimulationStepper

/-!
# The connectivity check

`assert_connectivity_between_hosts` sends packets both ways for 100 minutes, and waits up to 90 days for one of them to
arrive at each host. It has the network to itself. `World` is the network together with the check, which is at one of its
await points; as for the tasks of the network, a poll may come at any time after that.
-/

namespace QuicWorkbench
namespace Connectivity

def attempts : Nat := 100

/-- Wait for one minute after each attempt, to account for packet loss. -/
def pause : Nat := Duration.fromSecs 60

def days : Nat := 90

def timeout : Nat := Duration.fromSecs (3600 * 24 * days)

structure Error where
  aToBFailed : Bool
  bToAFailed : Bool
  deriving DecidableEq

def Error.message (e : Error) : String :=
  let report failed := if failed then "failed" else "succeeded"
  "failed to deliver packets between the hosts after " ++ toString days ++ " days (A to B " ++ report e.aToBFailed ++
    ", B to A " ++ report e.bToAFailed ++ ")"

/-- Where the check awaits. -/
inductive Check
  /-- The sleep after an attempt, or the start; there are `attemptsLeft` behind it. -/
  | sleeping (attemptsLeft deadline : Nat)
  | receivingAToB (deadline : Nat) (delivery : NextPacketDelivery)
  /-- The packets that arrived at `B`, if any did in time, are known. -/
  | receivingBToA (aToB : Option (List DeliveredTransmit)) (deadline : Nat) (delivery : NextPacketDelivery)
  /-- The durations after which the packets arrived, or the error. -/
  | done (result : Except Error (Nat × Nat))
  /-- The panic of a `forward`. -/
  | panicked

structure World where
  state : State
  check : Check

/-- The packet that an attempt sends to `target`; `none` is a panic. -/
def probe (net : InMemoryNetwork) (target : NodeIx) : Option OwnedTransmit :=
  (net.node target).udpEndpoint.map fun endpoint =>
    { destination := endpoint.addr, ecn := none, contents := [42], segmentSize := none }

/-- The loop over the peers; the draws are those of the two sends. `none` is an assertion that fails. -/
def attempt (net : InMemoryNetwork) (a b : NodeIx) (uuids : Uuid × Uuid) (draws : Draws × Draws) (s : State) :
    Option (Except State State) := do
  match ← s.sendFrom net a (← probe net b) uuids.1 draws.1 with
  | .error s => some (.error s)
  | .ok s => s.sendFrom net b (← probe net a) uuids.2 draws.2

/-- A poll of the `receive` of the check under its timeout: the result (`some none` once the time has elapsed), or `none`
while it is pending. -/
def pollTimeout (i : NodeIx) (deadline : Nat) (delivery : NextPacketDelivery) (s : State) :
    Option (Option (List DeliveredTransmit)) × NextPacketDelivery × State :=
  match delivery.poll (s.nodes i).inbound s.now i with
  | (.ready delivered, delivery, inbound) => (some (some delivered), delivery, s.setNode i { s.nodes i with inbound })
  | (.pending _, delivery, inbound) =>
    (if deadline ≤ s.now then some none else none, delivery, s.setNode i { s.nodes i with inbound })

/-- When the first of the packets arrived at the host; `none` is a panic. -/
def arrivedAt (net : InMemoryNetwork) (s : State) (i : NodeIx) (delivered : List DeliveredTransmit) : Option Nat :=
  delivered.head?.bind fun first => (SimulationStepper.mk s.log).getPacketArrivedAt first.data.id (net.node i).id

/-- The end of the check, with what arrived in time; `none` is a panic. -/
def conclude (net : InMemoryNetwork) (a b : NodeIx) (s : State) (aToB bToA : Option (List DeliveredTransmit)) :
    Option Check :=
  match aToB, bToA with
  | some aToB, some bToA => do
    let arrived₁ ← arrivedAt net s b aToB
    let arrived₂ ← arrivedAt net s a bToA
    some (.done (.ok (arrived₁, arrived₂)))
  | aToB, bToA => some (.done (.error { aToBFailed := aToB.isNone, bToAFailed := bToA.isNone }))

/-- The world after an attempt, behind which there are `attemptsLeft`. -/
def attempted (attemptsLeft : Nat) : Except State State → World
  | .error state => { state, check := .panicked }
  | .ok state => { state, check := .sleeping attemptsLeft (state.now + pause) }

inductive Action
  | network (a : QuicWorkbench.Action)
  /-- The check is polled. -/
  | check (uuids : Uuid × Uuid) (draws : Draws × Draws)

variable (net : InMemoryNetwork) (a b : NodeIx)

/-- A poll of the check, up to the next await point. `none` is an assertion that fails, or that there is nothing to do. -/
def World.poll (w : World) (uuids : Uuid × Uuid) (draws : Draws × Draws) : Option World :=
  match w.check with
  | .sleeping attemptsLeft deadline =>
    if w.state.now < deadline then none
    else
      match attemptsLeft with
      | 0 => some { w with check := .receivingAToB (w.state.now + timeout) (.new 1) }
      | attemptsLeft + 1 =>
        (attempt net a b uuids draws w.state).map (attempted attemptsLeft)
  | .receivingAToB deadline delivery =>
    match pollTimeout b deadline delivery w.state with
    | (none, delivery, state) => some { state, check := .receivingAToB deadline delivery }
    | (some aToB, _, state) => some { state, check := .receivingBToA aToB (state.now + timeout) (.new 1) }
  | .receivingBToA aToB deadline delivery =>
    match pollTimeout a deadline delivery w.state with
    | (none, delivery, state) => some { state, check := .receivingBToA aToB deadline delivery }
    | (some bToA, _, state) => (conclude net a b state aToB bToA).map fun check => { state, check }
  | .done _ | .panicked => none

def World.step (w : World) : Action → Option World
  | .network a => if a.isInternal then (net.step w.state a).map fun state => { w with state } else none
  | .check uuids draws => w.poll net a b uuids draws

def machine : Machine World Action := ⟨World.step net a b⟩

/-- The check starts in the state that `initialize` leaves. -/
def start (s : State) : World := { state := s, check := .sleeping attempts s.now }

end Connectivity
end QuicWorkbench
