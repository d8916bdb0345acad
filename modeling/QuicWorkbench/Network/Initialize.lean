import QuicWorkbench.Lib.Except
import QuicWorkbench.Network.Tasks

/-!
# Initialization

`InMemoryNetwork::initialize`: the tables are built and checked, the tasks are spawned (none of them
runs before `initialize` returns), and the initial events are processed.
-/

namespace QuicWorkbench

inductive InitializeError
  | oldTracer
  | oldStartInstant
  | tooFewHosts (found : Nat)
  | node (e : NodeError)
  | duplicateEndpoint (ip : IpAddr)
  | sameAddressPair (id conflicting : String) (source target : IpAddr)
  | duplicateLinkId (id : String)
  | sameAddress (routerId conflicting : String) (address : IpAddr)
  deriving DecidableEq

namespace InMemoryNetwork

/-- The routes of the interfaces, in ascending order of cost. `sort_by_key` is stable, as is insertion
sort. -/
def buildRoutes (spec : NetworkSpec) : HashMap IpAddr (List Route) :=
  let interfaces := spec.nodes.flatMap (·.interfaces)
  interfaces.foldl (fun m interface =>
    let routes := interface.routes.insertionSort fun a b => a.cost ≤ b.cost
    interface.addresses.foldl (fun m addr => m.insert addr.asIpAddr routes) m) ∅

/-- The tables of nodes while they are being built. -/
structure NodeTables where
  nodes : List Node := []
  byAddr : HashMap IpAddr NodeIx := ∅
  byId : HashMap String NodeIx := ∅

def addHost (t : NodeTables) (spec : NetworkNodeSpec) : Except InitializeError NodeTables :=
  match Node.host spec with
  | .error e => .error (.node e)
  | .ok (h, endpoint) =>
    let i := t.nodes.length
    if (t.byAddr.lookup endpoint.addr.ip).isSome then .error (.duplicateEndpoint endpoint.addr.ip)
    else .ok
      { nodes := t.nodes ++ [h]
        byAddr := t.byAddr.insert endpoint.addr.ip i
        byId := t.byId.insert h.id i }

/-- The loop over the addresses of a router. -/
def addAddresses (t : NodeTables) (router : Node) (i : NodeIx) : List IpAddr → Except InitializeError NodeTables
  | [] => .ok t
  | address :: addresses =>
    match t.byAddr.lookup address with
    | some conflicting =>
      .error (.sameAddress router.id ((t.nodes ++ [router]).getD conflicting default).id address)
    | none => addAddresses { t with byAddr := t.byAddr.insert address i } router i addresses

def addRouter (t : NodeTables) (spec : NetworkNodeSpec) : Except InitializeError NodeTables :=
  match Node.router spec with
  | .error e => .error (.node e)
  | .ok router => do
    let i := t.nodes.length
    let t ← addAddresses { t with byId := t.byId.insert router.id i } router i router.addresses
    pure { t with nodes := t.nodes ++ [router] }

/-- The tables of links while they are being built. -/
structure LinkTables where
  links : List NetworkLinkSpec := []
  byAddr : HashMap (IpAddr × IpAddr) LinkIx := ∅
  byId : HashMap String LinkIx := ∅

def addLink (t : LinkTables) (l : NetworkLinkSpec) : Except InitializeError LinkTables :=
  let j := t.links.length
  match t.byAddr.lookup (l.source, l.target) with
  | some conflicting =>
    .error (.sameAddressPair l.id (t.links.getD conflicting default).id l.source l.target)
  | none =>
    if (t.byId.lookup l.id).isSome then .error (.duplicateLinkId l.id)
    else .ok
      { links := t.links ++ [l]
        byAddr := t.byAddr.insert (l.source, l.target) j
        byId := t.byId.insert l.id j }

/-- The state before the initial events. -/
def initialState (net : InMemoryNetwork) (now : Nat) (events : List NetworkEvent) : State :=
  { now
    nodes := fun i => .new (net.node i)
    links := fun j => .new (net.link j)
    oneshots := []
    handled := fun _ => false
    nextTransmitNumber := 0
    nodeTasks := fun _ => .running
    linkTasks := fun _ => .next
    forwarders := fun _ => .awaiting (.new usizeMax)
    sockets := fun _ => none
    events
    log := []
    nextStay := 0
    generated := []
    history := [] }

/-- The tables of a network graph. -/
def buildNetwork (spec : NetworkSpec) (simulationStart start : Nat) : Except InitializeError InMemoryNetwork := do
  let hosts := spec.nodes.filter (·.kind = .host)
  let routers := spec.nodes.filter (·.kind ≠ .host)
  if hosts.length < 2 then throw (.tooFewHosts hosts.length)
  let nodes ← hosts.foldlM addHost {}
  let links ← spec.links.foldlM addLink {}
  let nodes ← routers.foldlM addRouter nodes
  pure
    { nodes := nodes.nodes
      links := links.links
      nodesByAddr := nodes.byAddr
      nodesById := nodes.byId
      routesByAddr := buildRoutes spec
      linksByAddr := links.byAddr
      linksById := links.byId
      simulationStart
      start }

theorem exists_of_buildNetwork {spec : NetworkSpec} {simulationStart start : Nat} {net : InMemoryNetwork}
    (h : buildNetwork spec simulationStart start = .ok net) :
    2 ≤ (spec.nodes.filter (·.kind = .host)).length ∧ ∃ t₁ links t₂,
      (spec.nodes.filter (·.kind = .host)).foldlM addHost {} = .ok t₁ ∧ spec.links.foldlM addLink {} = .ok links ∧
        (spec.nodes.filter (·.kind ≠ .host)).foldlM addRouter t₁ = .ok t₂ ∧
        net =
          { nodes := t₂.nodes
            links := links.links
            nodesByAddr := t₂.byAddr
            nodesById := t₂.byId
            routesByAddr := buildRoutes spec
            linksByAddr := links.byAddr
            linksById := links.byId
            simulationStart
            start } := by
  unfold buildNetwork at h
  dsimp only at h
  split_ifs at h with hhosts
  · cases h
  · simp only [Except.bind_eq_ok, Except.pure_eq_ok] at h
    obtain ⟨t₁, hadd, links, hlinks, t₂, hrouters, rfl⟩ := h
    exact ⟨Nat.le_of_not_lt hhosts, t₁, links, t₂, hadd, hlinks, hrouters, rfl⟩

/-- `InMemoryNetwork::initialize`, called when the clock shows `now`, with a tracer created at
`simulationStart`. -/
def initializeNetwork (spec : NetworkSpec) (events : NetworkEvents) (simulationStart start now : Nat)
    (disableTimeWarping : Bool) : Except InitializeError (InMemoryNetwork × State) := do
  if !disableTimeWarping then
    -- time warping is enabled, so the start instant should be zero
    if now - simulationStart ≠ 0 then throw .oldTracer
    if now - start ≠ 0 then throw .oldStartInstant
  let net ← buildNetwork spec simulationStart start
  let s := initialState net now events.sortedEvents
  let s := events.initialLinkEvents.foldl (fun s event => s.processLinkEvent net event) s
  let s := events.initialNodeEvents.foldl (fun s event => s.processNodeEvent net event) s
  pure (net, s)

end InMemoryNetwork

/-- A network initialized for a network graph and an event list, and a state that it reaches. In
time-warp mode the clock is paused, and `initializeNetwork` checks that tracer and simulation start
when the network does. -/
def Reaches (disableTimeWarping : Bool) (spec : NetworkSpec) (events : List NetworkEvent)
    (net : InMemoryNetwork) (s : State) : Prop :=
  ∃ simulationStart start now s₀ actions, simulationStart ≤ now ∧ start ≤ now ∧
    InMemoryNetwork.initializeNetwork spec (.new events spec.nodes spec.links) simulationStart start now
      disableTimeWarping = .ok (net, s₀) ∧
    net.machine.run s₀ actions = some s

end QuicWorkbench
