import QuicWorkbench.Network.Spec
import Mathlib.Data.List.Sort

/-!
# Network events

Status changes of links and nodes and buffer clears of nodes, at times relative to the start of the
simulation. The statuses before the first event are inferred: an entity is initially in the opposite
of the status its first status event gives it, and up if it has none.
-/

namespace QuicWorkbench

inductive UpdateNodeStatus
  | up
  | down
  deriving DecidableEq, Repr

inductive UpdateLinkStatus
  | up
  | down
  deriving DecidableEq, Repr

structure NodeEventPayload where
  nodeId : String
  status : Option UpdateNodeStatus
  clearBuffer : Bool
  deriving DecidableEq

structure LinkEventPayload where
  linkId : String
  status : Option UpdateLinkStatus
  bandwidthBps : Option Nat := none
  delay : Option Nat := none
  extraDelay : Option Nat := none
  extraDelayRatio : Option ℚ := none
  packetDuplicationRatio : Option ℚ := none
  packetLossRatio : Option ℚ := none
  congestionEventRatio : Option ℚ := none
  deriving DecidableEq

inductive NetworkEventKind
  | link (payload : LinkEventPayload)
  | node (payload : NodeEventPayload)

structure NetworkEvent where
  relativeTime : Nat
  kind : NetworkEventKind

structure NetworkEvents where
  sortedEvents : List NetworkEvent
  initialLinkEvents : List LinkEventPayload
  initialNodeEvents : List NodeEventPayload

def UpdateNodeStatus.opposite : UpdateNodeStatus → UpdateNodeStatus
  | .up => .down
  | .down => .up

def UpdateLinkStatus.opposite : UpdateLinkStatus → UpdateLinkStatus
  | .up => .down
  | .down => .up

/-- The link and the status that an event gives it, if it is a status event of a link. -/
def NetworkEvent.linkStatus (e : NetworkEvent) : Option (String × UpdateLinkStatus) :=
  match e.kind with
  | .link p => p.status.map fun st => (p.linkId, st)
  | .node _ => none

def NetworkEvent.nodeStatus (e : NetworkEvent) : Option (String × UpdateNodeStatus) :=
  match e.kind with
  | .link _ => none
  | .node p => p.status.map fun st => (p.nodeId, st)

/-- The first status of each entity that is not in `seen`, in the order of the events. -/
def firstStatuses {S : Type} (statusOf : NetworkEvent → Option (String × S)) :
    List NetworkEvent → List String → List (String × S)
  | [], _ => []
  | event :: events, seen =>
    match statusOf event with
    | none => firstStatuses statusOf events seen
    | some (id, updatedStatus) =>
      -- only events for entities that were not seen yet count
      if id ∈ seen then firstStatuses statusOf events seen
      else (id, updatedStatus) :: firstStatuses statusOf events (id :: seen)

/-- The initial status of the entities with status events, then of the entities without. -/
def initialStatuses {S : Type} (statusOf : NetworkEvent → Option (String × S)) (opposite : S → S) (up : S)
    (sortedEvents : List NetworkEvent) (ids : List String) : List (String × S) :=
  let first := firstStatuses statusOf sortedEvents []
  first.map (fun (id, updatedStatus) => (id, opposite updatedStatus)) ++
    (ids.filter (fun id => id ∉ first.map Prod.fst)).map fun id => (id, up)

def getInitialStatusForLinksWithEvents (sortedEvents : List NetworkEvent) (links : List NetworkLinkSpec) :
    List LinkEventPayload :=
  (initialStatuses NetworkEvent.linkStatus .opposite .up sortedEvents (links.map (·.id))).map
    fun (id, status) => { linkId := id, status := some status }

def getInitialStatusForNodesWithEvents (sortedEvents : List NetworkEvent) (nodes : List NetworkNodeSpec) :
    List NodeEventPayload :=
  (initialStatuses NetworkEvent.nodeStatus .opposite .up sortedEvents (nodes.map (·.id))).map
    fun (id, status) => { nodeId := id, status := some status, clearBuffer := false }

/-- `sort_by_key` is stable, as is insertion sort. -/
def NetworkEvents.new (events : List NetworkEvent) (nodes : List NetworkNodeSpec) (links : List NetworkLinkSpec) :
    NetworkEvents :=
  let events := events.insertionSort fun a b => a.relativeTime ≤ b.relativeTime
  { sortedEvents := events
    initialLinkEvents := getInitialStatusForLinksWithEvents events links
    initialNodeEvents := getInitialStatusForNodesWithEvents events nodes }

end QuicWorkbench
