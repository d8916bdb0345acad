import QuicWorkbench.Lib.Machine
import QuicWorkbench.Transmit

/-!
# Requests over QUIC

The connections of a simulation share a counter of the requests that are left. Each of them takes requests from it, awaits a
permit, sleeps if an interval is configured, and makes the request in a task of its own, which holds the permit until the
response has come. `World` are the tasks of the client and the main task; when a connection is established, a request answered
or a connection handled by the server is up to the environment. An action is what one task does between two of its awaits, of
which those that are ready right away count, too.
-/

namespace QuicWorkbench
namespace Requests

structure Options where
  requests : Nat
  concurrentConnections : Nat
  concurrentStreamsPerConnection : Nat
  requestIntervalMs : Option Nat

/-- The `request_interval` of the connections. -/
def Options.requestInterval (o : Options) : Nat := Duration.fromMillis (o.requestIntervalMs.getD 0)

def validateOpts (o : Options) : Except String Unit :=
  if o.requestIntervalMs.getD 0 ≠ 0 ∧ o.concurrentStreamsPerConnection ≠ 1 then
    .error ("incompatible command-line options used: `--request-interval-ms` is only valid when " ++
      "`--concurrent-streams-per-connection` is set to `1` (its default value)")
  else .ok ()

def maxConnections : Nat := 'Z'.toNat - 'A'.toNat

def i32Max : Nat := 2147483647

/-- A task that makes a request. -/
structure Request where
  made : Nat
  /-- When the task was done, and whether the response had come. -/
  result : Option (Nat × Bool)
  deriving DecidableEq

inductive Phase
  /-- Awaits a permit of `connections_semaphore`. -/
  | starting
  | connecting
  /-- Has taken a request, and awaits a permit of `requests_semaphore`. -/
  | acquiring
  /-- Sleeps before the request, with the permit. -/
  | sleeping (deadline : Nat)
  /-- Awaits the `k`th of the tasks. -/
  | joining (k : Nat)
  | done (ok : Bool)
  deriving DecidableEq

structure Connection where
  phase : Phase
  /-- The permits of `requests_semaphore`. -/
  permits : Nat
  /-- The `request_tasks`. -/
  requests : List Request

/-- What the connections share. -/
structure Shared where
  requestsLeft : Nat
  /-- The permits of `connections_semaphore`. -/
  connectionPermits : Nat

namespace Connection
variable (o : Options) (now : Nat) (c : Connection) (s : Shared)

def new : Connection := { phase := .starting, permits := o.concurrentStreamsPerConnection, requests := [] }

/-- The task is over, and drops its permit. -/
def finish (ok : Bool) : Connection × Shared :=
  ({ c with phase := .done ok }, { s with connectionPermits := s.connectionPermits + 1 })

/-- Break once there are no more requests left to make. -/
def takeRequest : Connection × Shared :=
  if s.requestsLeft = 0 then ({ c with phase := .joining 0 }, s)
  else ({ c with phase := .acquiring }, { s with requestsLeft := s.requestsLeft - 1 })

/-- Actually make the request, with a permit, and go on to the next one. -/
def makeRequest : Connection × Shared :=
  -- `requests_made`, an `i32`, overflows: a panic in a debug build; a release build wraps, and does not sleep from then on
  if c.requests.length = i32Max then Connection.finish { c with permits := c.permits + 1 } s false
  else Connection.takeRequest { c with requests := c.requests ++ [{ made := now, result := none }] } s

/-- A poll of the task; `none` while it is pending. -/
def poll : Option (Connection × Shared) :=
  match c.phase with
  | .starting =>
    if s.connectionPermits = 0 then none
    else some ({ c with phase := .connecting }, { s with connectionPermits := s.connectionPermits - 1 })
  | .connecting => none
  | .acquiring =>
    if c.permits = 0 then none
    else
      let c := { c with permits := c.permits - 1 }
      if 0 < c.requests.length ∧ o.requestInterval ≠ 0 then
        some ({ c with phase := .sleeping (now + o.requestInterval) }, s)
      else some (c.makeRequest now s)
  | .sleeping deadline => if now < deadline then none else some (c.makeRequest now s)
  | .joining k =>
    match c.requests[k]? with
    | none => some (c.finish s true)
    | some { result := none, .. } => none
    | some { result := some (_, true), .. } => some ({ c with phase := .joining (k + 1) }, s)
    | some { result := some (_, false), .. } => some (c.finish s false)
  | .done _ => none

/-- The endpoint has connected to the server, or failed to. -/
def connected (ok : Bool) : Option (Connection × Shared) :=
  match c.phase with
  | .connecting => some (if ok then c.takeRequest s else c.finish s false)
  | _ => none

/-- The `k`th task is done, and drops its permit. -/
def answered (k : Nat) (ok : Bool) : Option Connection :=
  match c.requests[k]? with
  | some { made, result := none } => some { c with
    requests := c.requests.set k { made, result := some (now, ok) }
    permits := c.permits + 1 }
  | _ => none

end Connection

inductive Main
  /-- Sleeps before the next connection. -/
  | spawning (deadline : Nat)
  /-- Awaits the `k`th of the connections. -/
  | joining (k : Nat)
  /-- All connections are closed, and the server has handled so many of them. -/
  | closing (handledConnections : Nat)
  | done (ok : Bool)
  deriving DecidableEq

structure World where
  now : Nat
  shared : Shared
  connections : List Connection
  main : Main

/-- The simulation, as it begins to make requests. -/
def start (o : Options) (now : Nat) : Except String World :=
  match validateOpts o with
  | .error e => .error e
  | .ok () =>
    if maxConnections < o.concurrentConnections then
      .error ("The maximum number of concurrent connections is " ++ toString maxConnections ++ ", but " ++
        toString o.concurrentConnections ++ " were configured")
    else .ok
      { now
        shared := { requestsLeft := o.requests, connectionPermits := o.concurrentConnections }
        connections := []
        main := .spawning now }

inductive Action
  | advance (d : Nat)
  | main
  | connection (i : Nat)
  | connected (i : Nat) (ok : Bool)
  | answered (i k : Nat) (ok : Bool)
  /-- The server has handled a connection. -/
  | handled (ok : Bool)

namespace World
variable (o : Options) (w : World)

def setConnection (i : Nat) (r : Connection × Shared) : World :=
  { w with connections := w.connections.set i r.1, shared := r.2 }

def pollMain : Option World :=
  match w.main with
  | .spawning deadline =>
    if w.now < deadline then none
    else if w.connections.length < o.concurrentConnections then some { w with
      connections := w.connections ++ [.new o]
      main := .spawning (w.now + Duration.fromMillis 1) }
    else some { w with main := .joining 0 }
  | .joining k =>
    match w.connections[k]? with
    | none => some { w with main := .closing 0 }
    | some c =>
      match c.phase with
      | .done true => some { w with main := .joining (k + 1) }
      | .done false => some { w with main := .done false }
      | _ => none
  | .closing _ | .done _ => none

/-- The loop that cleanly shuts down the server gets the next connection that was handled. -/
def handled (ok : Bool) : Option World :=
  match w.main with
  | .closing handledConnections =>
    if handledConnections < w.connections.length then
      if ok = false then some { w with main := .done false }
      else if w.connections.length ≤ handledConnections + 1 then some { w with main := .done true }
      else some { w with main := .closing (handledConnections + 1) }
    else none
  | _ => none

def step : Action → Option World
  | .advance d => some { w with now := w.now + d }
  | .main => w.pollMain o
  | .connection i => w.connections[i]?.bind fun c => (c.poll o w.now w.shared).map (w.setConnection i)
  | .connected i ok => w.connections[i]?.bind fun c => (c.connected w.shared ok).map (w.setConnection i)
  | .answered i k ok =>
    w.connections[i]?.bind fun c => (c.answered w.now k ok).map fun c => w.setConnection i (c, w.shared)
  | .handled ok => w.handled ok

end World

def machine (o : Options) : Machine World Action := ⟨World.step o⟩

end Requests
end QuicWorkbench
