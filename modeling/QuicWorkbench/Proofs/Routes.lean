import QuicWorkbench.Proofs.Topology

/-!
# The order of the candidate links

Routes are sorted by cost at each interface, and a node walks its addresses one after the other. So the links that a
packet is offered to are in the order of the costs exactly if the addresses are: no route that is taken at an address may
be cheaper than one at an address before it.
-/

namespace QuicWorkbench

namespace InMemoryNetwork
variable {net : InMemoryNetwork} {node : Node} {dest : IpAddr}

/-- The links from the node to the destination itself. -/
def directLinks (net : InMemoryNetwork) (node : Node) (dest : IpAddr) : List LinkIx :=
  node.addresses.filterMap fun nodeAddr => net.linksByAddr.lookup (nodeAddr, dest)

/-- The routes that are taken at the address towards the destination, and the links that they select. -/
def routedLinks (net : InMemoryNetwork) (dest nodeAddr : IpAddr) : List (Route × LinkIx) :=
  ((net.routesByAddr.lookup nodeAddr).getD []).filterMap fun route =>
    (route.nextHopTowardsDestination dest).bind fun nextHopAddr =>
      (net.linksByAddr.lookup (nodeAddr, nextHopAddr)).map fun link => (route, link)

/-- All routes of the node that are taken, in the order in which they are. -/
def routesTaken (net : InMemoryNetwork) (node : Node) (dest : IpAddr) : List (Route × LinkIx) :=
  node.addresses.flatMap (net.routedLinks dest)

/-- The walk visits the direct links, then those that the routes select. -/
theorem walkLinks_eq (h : ∀ a ∈ node.addresses, (net.routesByAddr.lookup a).isSome) :
    net.walkLinks node dest = (net.directLinks node dest ++ (net.routesTaken node dest).map Prod.snd).map some := by
  rw [walkLinks, List.map_append, directLinks, List.map_filterMap, routesTaken, List.map_flatMap, List.map_flatMap]
  congr 1
  rw [List.flatMap_def, List.flatMap_def]
  refine congrArg List.flatten (List.map_congr_left fun a ha => ?_)
  obtain ⟨routes, hroutes⟩ := Option.isSome_iff_exists.1 (h a ha)
  rw [routedLinks, hroutes, Option.getD_some]
  dsimp only
  rw [List.filterMap_filterMap, List.map_filterMap, List.map_filterMap]
  refine List.filterMap_congr fun route _ => ?_
  cases route.nextHopTowardsDestination dest with
  | none => rfl
  | some hop => simp [Function.comp_def]

theorem sorted_buildRoutes (spec : NetworkSpec) {a : IpAddr} {routes : List Route}
    (h : (buildRoutes spec).lookup a = some routes) : routes.Pairwise fun r r' => r.cost ≤ r'.cost := by
  let Sorted : HashMap IpAddr (List Route) → Prop := fun m =>
    ∀ a routes, m.lookup a = some routes → routes.Pairwise fun r r' => r.cost ≤ r'.cost
  have haddresses : ∀ (addresses : List Ipv4Cidr) (routes : List Route) (m : HashMap IpAddr (List Route)),
      (routes.Pairwise fun r r' => r.cost ≤ r'.cost) → Sorted m →
      Sorted (addresses.foldl (fun m addr => m.insert addr.asIpAddr routes) m) := by
    intro addresses routes
    induction addresses with
    | nil => exact fun m _ hm => hm
    | cons c addresses ih =>
      intro m hroutes hm
      refine ih _ hroutes fun a routes' ha => ?_
      by_cases hc : a = c.asIpAddr
      · subst hc
        rw [AList.lookup_insert] at ha
        exact Option.some.inj ha ▸ hroutes
      · rw [AList.lookup_insert_ne hc] at ha
        exact hm a routes' ha
  have hinterfaces : ∀ (interfaces : List NetworkInterface) (m : HashMap IpAddr (List Route)), Sorted m →
      Sorted (interfaces.foldl (fun m interface =>
        let routes := interface.routes.insertionSort fun a b => a.cost ≤ b.cost
        interface.addresses.foldl (fun m addr => m.insert addr.asIpAddr routes) m) m) := by
    intro interfaces
    induction interfaces with
    | nil => exact fun m hm => hm
    | cons i interfaces ih =>
      intro m hm
      exact ih _ (haddresses _ _ _ (List.pairwise_insertionSort (fun a b : Route => a.cost ≤ b.cost) i.routes) hm)
  exact hinterfaces _ ∅ (fun a routes ha => by simp [AList.lookup_empty] at ha) a routes h

/-- The candidate links are the direct ones, followed by the links of the routes in the order of their costs. -/
def CheapestFirst (net : InMemoryNetwork) (node : Node) (dest : IpAddr) : Prop :=
  net.candidateLinks node dest = some (net.directLinks node dest ++ (net.routesTaken node dest).map Prod.snd) ∧
    (net.routesTaken node dest).Pairwise fun x y => x.1.cost ≤ y.1.cost

/-- No route that is taken at an address of the node is cheaper than one that is taken at an address before it. -/
def AddressesByCost (net : InMemoryNetwork) (node : Node) (dest : IpAddr) : Prop :=
  node.addresses.Pairwise fun a b =>
    ∀ x ∈ net.routedLinks dest a, ∀ y ∈ net.routedLinks dest b, x.1.cost ≤ y.1.cost

instance (net : InMemoryNetwork) (node : Node) (dest : IpAddr) : Decidable (net.AddressesByCost node dest) :=
  inferInstanceAs (Decidable (node.addresses.Pairwise _))

theorem sorted_routedLinks {spec : NetworkSpec} (h : net.routesByAddr = buildRoutes spec) (a : IpAddr) :
    (net.routedLinks dest a).Pairwise fun x y => x.1.cost ≤ y.1.cost := by
  rw [routedLinks, h]
  cases hroutes : (buildRoutes spec).lookup a with
  | none => exact List.Pairwise.nil
  | some routes =>
    refine (sorted_buildRoutes spec hroutes).filterMap _ fun r r' hle x hx y hy => ?_
    simp only [Option.bind_eq_some_iff, Option.map_eq_some_iff] at hx hy
    obtain ⟨_, _, _, _, rfl⟩ := hx
    obtain ⟨_, _, _, _, rfl⟩ := hy
    exact hle

end InMemoryNetwork

/-- The links are offered cheapest first exactly if the node's addresses are in the order of the costs. -/
theorem cheapestFirst_iff {spec : NetworkSpec} {events : NetworkEvents} {simulationStart start now : Nat}
    {disableTimeWarping : Bool} {net : InMemoryNetwork} {s : State}
    (h : InMemoryNetwork.initializeNetwork spec events simulationStart start now disableTimeWarping = .ok (net, s))
    {node : Node} (hnode : node ∈ net.nodes) (dest : IpAddr) :
    net.CheapestFirst node dest ↔ net.AddressesByCost node dest := by
  have hbuild := (InMemoryNetwork.initializeNetwork_ok h).1
  have hroutes := InMemoryNetwork.buildNetwork_routes hbuild
  have hlookup : ∀ a ∈ node.addresses, (net.routesByAddr.lookup a).isSome := fun a ha =>
    InMemoryNetwork.isSome_routesByAddr hbuild hnode ha
  rw [InMemoryNetwork.CheapestFirst, InMemoryNetwork.routesTaken, List.pairwise_flatMap]
  constructor
  · exact fun hcheapest => hcheapest.2.2
  · intro hby
    exact ⟨InMemoryNetwork.candidateLinks_of_walk (InMemoryNetwork.walkLinks_eq hlookup),
      fun a _ => InMemoryNetwork.sorted_routedLinks hroutes a, hby⟩

/-! ### Two interfaces -/

namespace TwoInterfaces

def b : BitVec 32 := 0x0a030001

/-- The router behind the first interface of `A`, and the one behind the second. -/
def r₁ : BitVec 32 := 0x0a010001
def r₂ : BitVec 32 := 0x0a020001

def a₁ : BitVec 32 := 0x0a010002
def a₂ : BitVec 32 := 0x0a020002

/-- An interface with a route to `B`. -/
def interface (address : BitVec 32) (next : BitVec 32) (cost : Nat) : NetworkInterface :=
  { addresses := [⟨address, 24⟩], routes := [{ destination := ⟨.v4 b, .v4 b⟩, next := .v4 next, cost }] }

end TwoInterfaces

open TwoInterfaces in
/-- Host `A` reaches `B` by two routers, one for each interface. -/
def twoInterfaces (cost₁ cost₂ : Nat) : NetworkSpec :=
  { nodes :=
      [ { HostPair.host "A" [] 1000 with interfaces := [interface a₁ r₁ cost₁, interface a₂ r₂ cost₂] },
        HostPair.host "B" [b] 1000,
        { HostPair.host "R1" [r₁] 1000 with kind := .router },
        { HostPair.host "R2" [r₂] 1000 with kind := .router } ]
    links :=
      [ { HostPair.link "ar1" a₁ 8000000 0 with target := .v4 r₁ },
        { HostPair.link "ar2" a₂ 8000000 0 with target := .v4 r₂ },
        { HostPair.link "r1b" r₁ 8000000 0 with target := .v4 b },
        { HostPair.link "r2b" r₂ 8000000 0 with target := .v4 b } ] }

/-- If the first interface has the cheaper route, its link is the first. -/
theorem cheapestFirst_twoInterfaces : ∃ net s, InMemoryNetwork.initializeNetwork (twoInterfaces 1 10)
    (.new [] (twoInterfaces 1 10).nodes (twoInterfaces 1 10).links) 0 0 0 false = .ok (net, s) ∧
    net.candidateLinks (net.node 0) (.v4 TwoInterfaces.b) = some [0, 1] ∧
    net.CheapestFirst (net.node 0) (.v4 TwoInterfaces.b) := by
  obtain ⟨net, s, -, hinit, -, -, h⟩ := exists_of_simulateGuarded (twoInterfaces 1 10) [] [] (fun _ _ _ => True)
    (fun net _ => decide (net.candidateLinks (net.node 0) (.v4 TwoInterfaces.b) = some [0, 1] ∧ 0 < net.nodes.length ∧
      net.AddressesByCost (net.node 0) (.v4 TwoInterfaces.b))) (by decide +kernel)
  obtain ⟨hlinks, hlen, hby⟩ := of_decide_eq_true h
  exact ⟨net, s, hinit, hlinks, (cheapestFirst_iff hinit (InMemoryNetwork.node_eq_getElem hlen ▸ List.getElem_mem hlen) _).2 hby⟩

/-- If it has the dearer one, its link is still the first. -/
theorem dearer_route_first : ∃ net s node, InMemoryNetwork.initializeNetwork (twoInterfaces 10 1)
    (.new [] (twoInterfaces 10 1).nodes (twoInterfaces 10 1).links) 0 0 0 false = .ok (net, s) ∧ node ∈ net.nodes ∧
    net.candidateLinks node (.v4 TwoInterfaces.b) = some [0, 1] ∧
    (net.routesTaken node (.v4 TwoInterfaces.b)).map (fun x => (x.1.cost, x.2)) = [(10, 0), (1, 1)] ∧
    ¬ net.CheapestFirst node (.v4 TwoInterfaces.b) := by
  obtain ⟨net, s, -, hinit, -, -, h⟩ := exists_of_simulateGuarded (twoInterfaces 10 1) [] [] (fun _ _ _ => True)
    (fun net _ => decide (net.candidateLinks (net.node 0) (.v4 TwoInterfaces.b) = some [0, 1] ∧ 0 < net.nodes.length ∧
      (net.routesTaken (net.node 0) (.v4 TwoInterfaces.b)).map (fun x => (x.1.cost, x.2)) = [(10, 0), (1, 1)]))
    (by decide +kernel)
  obtain ⟨hlinks, hlen, htaken⟩ := of_decide_eq_true h
  refine ⟨net, s, net.node 0, hinit, InMemoryNetwork.node_eq_getElem hlen ▸ List.getElem_mem hlen, hlinks, htaken, fun hcheapest => ?_⟩
  have hcosts : ([(10, 0), (1, 1)] : List (Nat × LinkIx)).Pairwise fun x y => x.1 ≤ y.1 := by
    rw [← htaken, List.pairwise_map]
    exact hcheapest.2
  simp at hcosts

end QuicWorkbench
