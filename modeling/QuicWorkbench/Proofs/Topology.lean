import QuicWorkbench.Proofs.Simulate
import QuicWorkbench.Proofs.Tables

/-!
# What `initialize` accepts

`initialize` registers a host under its first address only and does not look at the ends of links, while the verifier
maps all addresses to nodes and both ends of every link. So a network graph that `initialize` accepts may have a link
whose target it cannot look up, and may be one that the verifier rejects.
-/

namespace QuicWorkbench

/-! ### The map of addresses -/

/-- The first address of the node. -/
def NetworkNodeSpec.firstAddress (n : NetworkNodeSpec) : Option IpAddr :=
  match n.interfaces with
  | [] => none
  | interface :: _ => interface.addresses.head?.map Ipv4Cidr.asIpAddr

/-- A packet can be forwarded to the address: the first one of a host, or any of a router. -/
def NetworkNodeSpec.Registers (n : NetworkNodeSpec) (a : IpAddr) : Prop :=
  match n.kind with
  | .host => n.firstAddress = some a
  | .router => a ∈ n.addresses

theorem Node.registers_of_host {spec : NetworkNodeSpec} {n : Node} {endpoint : UdpEndpoint}
    (h : Node.host spec = .ok (n, endpoint)) (a : IpAddr) : spec.Registers a ↔ a = endpoint.addr.ip := by
  unfold Node.host at h
  split_ifs at h with hkind
  split at h
  · simp at h
  · rename_i interface interfaces hinterfaces
    split at h
    · simp at h
    · rename_i address addresses haddresses
      obtain ⟨rfl, rfl⟩ := by simpa using h
      have hkind : spec.kind = .host := by simpa using hkind
      simp [NetworkNodeSpec.Registers, hkind, NetworkNodeSpec.firstAddress, hinterfaces, haddresses, eq_comm]

namespace InMemoryNetwork

/-- The map of addresses has the registered addresses of the nodes that were added. -/
def NodeTables.Maps (specs : List NetworkNodeSpec) (t : NodeTables) : Prop :=
  ∀ a, (t.byAddr.lookup a).isSome ↔ ∃ n ∈ specs, n.Registers a

theorem addHost_maps {specs : List NetworkNodeSpec} {t t' : NodeTables} {spec : NetworkNodeSpec} (h : t.Maps specs)
    (hok : addHost t spec = .ok t') : t'.Maps (specs ++ [spec]) := by
  intro a
  unfold addHost at hok
  split at hok
  · simp at hok
  · rename_i n endpoint hhost
    dsimp only at hok
    split_ifs at hok
    obtain rfl := Except.ok.inj hok
    rw [isSome_lookup_insert, h a, ← Node.registers_of_host hhost]
    simp [or_and_right, exists_or]

theorem isSome_addAddresses {router : Node} {i : NodeIx} (addresses : List IpAddr) {t t' : NodeTables}
    (hok : addAddresses t router i addresses = .ok t') (a : IpAddr) :
    (t'.byAddr.lookup a).isSome ↔ (t.byAddr.lookup a).isSome ∨ a ∈ addresses := by
  induction addresses generalizing t with
  | nil =>
    obtain rfl := Except.ok.inj hok
    simp
  | cons address addresses ih =>
    rw [addAddresses] at hok
    split at hok
    · simp at hok
    · rw [ih hok, isSome_lookup_insert, List.mem_cons, or_assoc]

theorem addRouter_maps {specs : List NetworkNodeSpec} {t t' : NodeTables} {spec : NetworkNodeSpec} (h : t.Maps specs)
    (hkind : spec.kind ≠ .host) (hok : addRouter t spec = .ok t') : t'.Maps (specs ++ [spec]) := by
  intro a
  unfold addRouter at hok
  split at hok
  · simp at hok
  · rename_i n hrouter
    obtain ⟨t₁, haddresses, hok⟩ := Except.bind_eq_ok.1 hok
    obtain rfl := Except.pure_eq_ok.1 hok
    have hrouterKind : spec.kind = .router := by
      cases hk : spec.kind with
      | host => exact absurd hk hkind
      | router => rfl
    have hregisters : spec.Registers a ↔ a ∈ n.addresses := by
      rw [NetworkNodeSpec.Registers, hrouterKind, (router_of hrouter hkind).addresses]
    rw [show ({ t₁ with nodes := t₁.nodes ++ [n] } : NodeTables).byAddr = t₁.byAddr from rfl,
      isSome_addAddresses _ haddresses, h a, ← hregisters]
    simp [or_and_right, exists_or]

theorem buildNetwork_routes {spec : NetworkSpec} {simulationStart start : Nat} {net : InMemoryNetwork}
    (h : buildNetwork spec simulationStart start = .ok net) : net.routesByAddr = buildRoutes spec := by
  obtain ⟨-, t₁, links, t₂, -, -, -, rfl⟩ := exists_of_buildNetwork h
  rfl

theorem nodesByAddr_isSome_iff {spec : NetworkSpec} {simulationStart start : Nat} {net : InMemoryNetwork}
    (h : buildNetwork spec simulationStart start = .ok net) (a : IpAddr) :
    (net.nodesByAddr.lookup a).isSome ↔ ∃ n ∈ spec.nodes, n.Registers a := by
  obtain ⟨-, t₁, links, t₂, hhosts, -, hrouters, rfl⟩ := exists_of_buildNetwork h
  have h₀ : NodeTables.Maps [] {} := fun a => by simp [AList.lookup_empty]
  have h₁ : NodeTables.Maps _ t₁ := Except.foldlM_ok_induction (I := fun specs t => NodeTables.Maps specs t) _
    (fun pre a _ b b' hI hok => addHost_maps hI hok) h₀ hhosts
  have h₂ : NodeTables.Maps (spec.nodes.filter (·.kind = .host) ++ spec.nodes.filter (·.kind ≠ .host)) t₂ := by
    refine Except.foldlM_ok_induction (I := fun specs t => NodeTables.Maps specs t) _ (fun pre a ha b b' hI hok => ?_) h₁ hrouters
    exact addRouter_maps hI (by simpa using (List.mem_filter.1 ha).2) hok
  rw [show (t₂.byAddr.lookup a).isSome ↔ ∃ n ∈ spec.builtNodes, n.Registers a from h₂ a]
  constructor
  · rintro ⟨n, hn, hr⟩
    exact ⟨n, spec.builtNodes_perm.mem_iff.1 hn, hr⟩
  · rintro ⟨n, hn, hr⟩
    exact ⟨n, spec.builtNodes_perm.mem_iff.2 hn, hr⟩

theorem isSome_buildRoutes_iff (spec : NetworkSpec) (a : IpAddr) :
    ((buildRoutes spec).lookup a).isSome ↔ ∃ n ∈ spec.nodes, a ∈ n.addresses := by
  have haddresses : ∀ (addresses : List Ipv4Cidr) (routes : List Route) (m : HashMap IpAddr (List Route)),
      ((addresses.foldl (fun m addr => m.insert addr.asIpAddr routes) m).lookup a).isSome ↔
        (m.lookup a).isSome ∨ ∃ c ∈ addresses, c.asIpAddr = a := by
    intro addresses routes
    induction addresses with
    | nil => simp
    | cons c addresses ih =>
      intro m
      rw [List.foldl_cons, ih, isSome_lookup_insert]
      simp only [List.mem_cons, exists_eq_or_imp, or_assoc, eq_comm (a := a)]
  have hinterfaces : ∀ (interfaces : List NetworkInterface) (m : HashMap IpAddr (List Route)),
      ((interfaces.foldl (fun m interface =>
        let routes := interface.routes.insertionSort fun a b => a.cost ≤ b.cost
        interface.addresses.foldl (fun m addr => m.insert addr.asIpAddr routes) m) m).lookup a).isSome ↔
        (m.lookup a).isSome ∨ ∃ i ∈ interfaces, ∃ c ∈ i.addresses, c.asIpAddr = a := by
    intro interfaces
    induction interfaces with
    | nil => simp
    | cons i interfaces ih =>
      intro m
      rw [List.foldl_cons, ih, haddresses]
      simp only [List.mem_cons, exists_eq_or_imp, or_assoc]
  rw [buildRoutes, hinterfaces]
  simp only [AList.lookup_empty, Option.isSome_none, Bool.false_eq_true, false_or, NetworkNodeSpec.addresses,
    List.mem_flatMap, List.mem_map]
  constructor
  · rintro ⟨i, ⟨n, hn, hi⟩, c, hc, hca⟩
    exact ⟨n, hn, i, hi, c, hc, hca⟩
  · rintro ⟨n, hn, i, hi, c, hc, hca⟩
    exact ⟨i, ⟨n, hn, hi⟩, c, hc, hca⟩

theorem isSome_routesByAddr {spec : NetworkSpec} {simulationStart start : Nat} {net : InMemoryNetwork}
    (h : buildNetwork spec simulationStart start = .ok net) {n : Node} (hn : n ∈ net.nodes) {a : IpAddr}
    (ha : a ∈ n.addresses) : (net.routesByAddr.lookup a).isSome := by
  rw [buildNetwork_routes h, isSome_buildRoutes_iff]
  obtain ⟨n', hn', hof⟩ := (buildNetwork_tables h).of_mem hn
  exact ⟨n', hn', hof.addresses ▸ ha⟩

/-! ### Walks -/

theorem exists_walkLinks {net : InMemoryNetwork} {n : Node} (h : ∀ a ∈ n.addresses, (net.routesByAddr.lookup a).isSome)
    (dest : IpAddr) : ∃ links : List LinkIx, net.walkLinks n dest = links.map some := by
  have hwalk : ∀ x ∈ net.walkLinks n dest, x.isSome := by
    intro x hx
    rcases List.mem_append.1 hx with hdirect | hrouted
    · obtain ⟨a, -, hlookup⟩ := List.mem_filterMap.1 hdirect
      obtain ⟨j, -, rfl⟩ := Option.map_eq_some_iff.1 hlookup
      rfl
    · obtain ⟨a, ha, hmem⟩ := List.mem_flatMap.1 hrouted
      obtain ⟨routes, hroutes⟩ := Option.isSome_iff_exists.1 (h a ha)
      rw [hroutes] at hmem
      obtain ⟨b, -, hlookup⟩ := List.mem_filterMap.1 hmem
      obtain ⟨j, -, rfl⟩ := Option.map_eq_some_iff.1 hlookup
      rfl
  generalize net.walkLinks n dest = walk at hwalk
  induction walk with
  | nil => exact ⟨[], rfl⟩
  | cons x walk ih =>
    obtain ⟨j, rfl⟩ := Option.isSome_iff_exists.1 (hwalk x (List.mem_cons_self ..))
    obtain ⟨links, rfl⟩ := ih fun y hy => hwalk y (List.mem_cons_of_mem _ hy)
    exact ⟨j :: links, rfl⟩

theorem candidateLinks_of_walk {net : InMemoryNetwork} {n : Node} {dest : IpAddr} {links : List LinkIx}
    (h : net.walkLinks n dest = links.map some) : net.candidateLinks n dest = some links := by
  rw [candidateLinks, h]
  clear h
  induction links with
  | nil => rfl
  | cons j links ih => simp [List.mapM_cons, ih]

theorem hasRouteTo_of_walk {net : InMemoryNetwork} {n : Node} {dest : IpAddr} {links : List LinkIx}
    (h : net.walkLinks n dest = links.map some) : net.hasRouteTo n dest = some (!links.isEmpty) := by
  rw [hasRouteTo, h]
  cases links <;> rfl

/-! ### Lookups -/

/-- The lookups of the forwarding code that panic on a missing entry find one. -/
structure LookupsDefined (net : InMemoryNetwork) : Prop where
  /-- `nodes_by_addr`, where a packet comes off a link -/
  nodes : ∀ l ∈ net.links, (net.nodesByAddr.lookup l.target).isSome
  /-- `routes_by_addr`, in `walk_links` -/
  routes : ∀ n ∈ net.nodes, ∀ a ∈ n.addresses, (net.routesByAddr.lookup a).isSome

/-- Then `walk_links` does not panic. -/
theorem LookupsDefined.candidateLinks {net : InMemoryNetwork} (h : net.LookupsDefined) {n : Node} (hn : n ∈ net.nodes)
    (dest : IpAddr) : (net.candidateLinks n dest).isSome ∧ (net.hasRouteTo n dest).isSome := by
  obtain ⟨links, hwalk⟩ := exists_walkLinks (h.routes n hn) dest
  rw [candidateLinks_of_walk hwalk, hasRouteTo_of_walk hwalk]
  exact ⟨rfl, rfl⟩

/-- The lookups are defined exactly if packets can be forwarded to the targets of all links. -/
theorem lookupsDefined_iff {spec : NetworkSpec} {events : NetworkEvents} {simulationStart start now : Nat}
    {disableTimeWarping : Bool} {net : InMemoryNetwork} {s : State}
    (h : initializeNetwork spec events simulationStart start now disableTimeWarping = .ok (net, s)) :
    net.LookupsDefined ↔ ∀ l ∈ spec.links, ∃ n ∈ spec.nodes, n.Registers l.target := by
  have hbuild := (initializeNetwork_ok h).1
  have htables := buildNetwork_tables hbuild
  constructor
  · intro hdefined l hl
    rw [← htables.links] at hl
    exact (nodesByAddr_isSome_iff hbuild _).1 (hdefined.nodes l hl)
  · intro hregistered
    refine ⟨fun l hl => ?_, fun n hn a ha => isSome_routesByAddr hbuild hn ha⟩
    rw [htables.links] at hl
    exact (nodesByAddr_isSome_iff hbuild _).2 (hregistered l hl)

end InMemoryNetwork

/-- Two hosts and a link to the second address of host `A`. -/
def linkToSecondAddress : NetworkSpec :=
  { nodes := (hostPair 8000000 0).nodes
    links := [{ HostPair.link "ba2" HostPair.b 8000000 0 with target := .v4 HostPair.a₂ }] }

/-- Whether the task has panicked. -/
def ForwarderTask.hasPanicked : ForwarderTask → Bool
  | .awaiting _ => false
  | .panicked => true

/-- `B` sends a packet to the second address of `A`, and the forwarder of the link panics. -/
theorem lookup_of_second_address_panics : ∃ net s, Reaches false linkToSecondAddress [] net s ∧
    (s.forwarders 0).hasPanicked ∧ ¬ net.LookupsDefined := by
  obtain ⟨net, s, hreach, hs⟩ := exists_reaches_of_simulate linkToSecondAddress []
    [.trySend 1 { HostPair.transmit with destination := ⟨.v4 HostPair.a₂, hostPort⟩ } 1 (HostPair.draws 0),
      .nodeTask 1 HostPair.rolls, .linkTask 0 0, .advance (Duration.fromMillis 5), .forwarder 0 fun _ => HostPair.draws 0]
    (fun net s => (s.forwarders 0).hasPanicked && net.links.any fun l => (net.nodesByAddr.lookup l.target).isNone)
    (by decide +kernel)
  rw [Bool.and_eq_true, List.any_eq_true] at hs
  obtain ⟨hpanicked, l, hl, hnone⟩ := hs
  refine ⟨net, s, hreach, hpanicked, fun hdefined => ?_⟩
  have hsome := hdefined.nodes l hl
  simp [Option.isNone_iff_eq_none.1 hnone] at hsome

/-- The links of `hostPair` go to the first address of `B`. -/
theorem lookupsDefined_hostPair : ∃ net s, InMemoryNetwork.initializeNetwork (hostPair 8000000 0)
    (.new [] (hostPair 8000000 0).nodes (hostPair 8000000 0).links) 0 0 0 false = .ok (net, s) ∧ net.LookupsDefined := by
  cases hinit : InMemoryNetwork.initializeNetwork (hostPair 8000000 0)
      (.new [] (hostPair 8000000 0).nodes (hostPair 8000000 0).links) 0 0 0 false with
  | error e =>
    have hok : (InMemoryNetwork.initializeNetwork (hostPair 8000000 0)
      (.new [] (hostPair 8000000 0).nodes (hostPair 8000000 0).links) 0 0 0 false).isOk := by decide +kernel
    simp [hinit, Except.isOk, Except.toBool] at hok
  | ok x =>
    refine ⟨x.1, x.2, rfl, (InMemoryNetwork.lookupsDefined_iff hinit).2 fun l hl => ?_⟩
    refine ⟨HostPair.host "B" [HostPair.b] 1000, by simp [hostPair], ?_⟩
    rcases List.mem_cons.1 hl with rfl | hl
    · rfl
    · rw [List.mem_singleton.1 hl]
      rfl

/-! ### The verifier -/

/-- No two nodes with different ids have an address in common. -/
def NetworkSpec.AddressesDisjoint (spec : NetworkSpec) : Prop :=
  ∀ n ∈ spec.nodes, ∀ n' ∈ spec.nodes, ∀ a ∈ n.addresses, a ∈ n'.addresses → n.id = n'.id

/-- Both ends of every link are addresses of nodes. -/
def NetworkSpec.LinksAttached (spec : NetworkSpec) : Prop :=
  ∀ l ∈ spec.links, (∃ n ∈ spec.nodes, l.source ∈ n.addresses) ∧ ∃ n ∈ spec.nodes, l.target ∈ n.addresses

namespace SimulationVerifier

theorem mapAddresses_of_lookup {nodeId : String} {addr : Ipv4Cidr} {addrs : List Ipv4Cidr} {m : HashMap IpAddr String}
    (h : ∀ id, m.lookup addr.asIpAddr = some id → id = nodeId) : mapAddresses nodeId (addr :: addrs) m =
      mapAddresses nodeId addrs (m.insert addr.asIpAddr nodeId) := by
  rw [mapAddresses]
  split
  · rename_i existing hexisting
    rw [if_neg (by simpa using h existing hexisting)]
  · rfl

theorem exists_mapAddresses {nodeId : String} (addrs : List Ipv4Cidr) {m : HashMap IpAddr String}
    (h : ∀ c ∈ addrs, ∀ id, m.lookup c.asIpAddr = some id → id = nodeId) :
    ∃ m', mapAddresses nodeId addrs m = .ok m' ∧ ∀ a id, m'.lookup a = some id → m.lookup a = some id ∨
      id = nodeId ∧ ∃ c ∈ addrs, c.asIpAddr = a := by
  induction addrs generalizing m with
  | nil => exact ⟨m, rfl, fun a id ha => .inl ha⟩
  | cons addr addrs ih =>
    rw [mapAddresses_of_lookup (h addr (List.mem_cons_self ..))]
    have hinsert : ∀ a id, (m.insert addr.asIpAddr nodeId).lookup a = some id →
        m.lookup a = some id ∨ id = nodeId ∧ addr.asIpAddr = a := by
      intro a id ha
      by_cases heq : a = addr.asIpAddr
      · subst heq
        rw [AList.lookup_insert] at ha
        exact .inr ⟨(Option.some.inj ha).symm, rfl⟩
      · rw [AList.lookup_insert_ne heq] at ha
        exact .inl ha
    obtain ⟨m', hm', hback⟩ := ih (m := m.insert addr.asIpAddr nodeId) fun c hc id hid => by
      rcases hinsert _ _ hid with hold | ⟨hnew, -⟩
      · exact h c (List.mem_cons_of_mem _ hc) id hold
      · exact hnew
    refine ⟨m', hm', fun a id ha => ?_⟩
    rcases hback a id ha with hm | ⟨hid, c, hc, hca⟩
    · rcases hinsert a id hm with hold | ⟨hnew, heq⟩
      · exact .inl hold
      · exact .inr ⟨hnew, addr, List.mem_cons_self .., heq⟩
    · exact .inr ⟨hid, c, List.mem_cons_of_mem _ hc, hca⟩

theorem exists_mapNodes (nodes : List NetworkNodeSpec) {m : HashMap IpAddr String}
    (hold : ∀ n ∈ nodes, ∀ a ∈ n.addresses, ∀ id, m.lookup a = some id → id = n.id)
    (hdisjoint : ∀ n ∈ nodes, ∀ n' ∈ nodes, ∀ a ∈ n.addresses, a ∈ n'.addresses → n.id = n'.id) :
    ∃ m', mapNodes nodes m = .ok m' ∧ ∀ a id, m'.lookup a = some id → m.lookup a = some id ∨ ∃ n ∈ nodes, a ∈ n.addresses := by
  induction nodes generalizing m with
  | nil => exact ⟨m, rfl, fun a id ha => .inl ha⟩
  | cons n nodes ih =>
    have hmem : ∀ c ∈ n.interfaces.flatMap (·.addresses), c.asIpAddr ∈ n.addresses := by
      intro c hc
      obtain ⟨i, hi, hc⟩ := List.mem_flatMap.1 hc
      exact List.mem_flatMap.2 ⟨i, hi, List.mem_map_of_mem hc⟩
    obtain ⟨m₁, hm₁, hback⟩ := @exists_mapAddresses n.id (n.interfaces.flatMap (·.addresses)) m
      fun c hc id hid => hold n (List.mem_cons_self ..) _ (hmem c hc) id hid
    obtain ⟨m', hm', hback'⟩ := ih (m := m₁) (fun n' hn' a ha id hid => by
      rcases hback a id hid with hm | ⟨rfl, c, hc, rfl⟩
      · exact hold n' (List.mem_cons_of_mem _ hn') a ha id hm
      · exact hdisjoint n (List.mem_cons_self ..) n' (List.mem_cons_of_mem _ hn') _ (hmem c hc) ha)
      fun n' hn' n'' hn'' => hdisjoint n' (List.mem_cons_of_mem _ hn') n'' (List.mem_cons_of_mem _ hn'')
    refine ⟨m', by rw [mapNodes, hm₁]; exact hm', fun a id ha => ?_⟩
    rcases hback' a id ha with hm | ⟨n', hn', ha⟩
    · rcases hback a id hm with hm | ⟨-, c, hc, rfl⟩
      · exact .inl hm
      · exact .inr ⟨n, List.mem_cons_self .., hmem c hc⟩
    · exact .inr ⟨n', List.mem_cons_of_mem _ hn', ha⟩

theorem exists_linkMetadataOf_iff {ipToNode : HashMap IpAddr String} (links : List NetworkLinkSpec)
    (metadata : HashMap String LinkMetadata) : (∃ metadata', linkMetadataOf ipToNode links metadata = .ok metadata') ↔
      ∀ l ∈ links, (ipToNode.lookup l.source).isSome ∧ (ipToNode.lookup l.target).isSome := by
  induction links generalizing metadata with
  | nil => simp [linkMetadataOf]
  | cons l links ih =>
    rw [linkMetadataOf]
    cases hsource : ipToNode.lookup l.source with
    | none => simp [hsource]
    | some source =>
      cases htarget : ipToNode.lookup l.target with
      | none => simp [htarget]
      | some target => simp [ih, hsource, htarget]

/-- What the verifier requires of a network graph. -/
theorem exists_new_iff (order : List String) (steps : List SimulationStep) (spec : NetworkSpec) :
    (∃ v, SimulationVerifier.new order steps spec = .ok v) ↔ spec.AddressesDisjoint ∧ spec.LinksAttached := by
  constructor
  · rintro ⟨v, hv⟩
    obtain ⟨ipToNode, hmap, metadata, hmetadata, -⟩ := new_eq_ok_iff.1 hv
    have hall := (mapNodes_ok _ hmap).2
    have hdisjoint : spec.AddressesDisjoint := by
      intro n hn n' hn' a ha ha'
      exact Option.some.inj ((hall n hn a ha).symm.trans (hall n' hn' a ha'))
    obtain ⟨m', hm', hback⟩ := exists_mapNodes spec.nodes (m := ∅) (by simp [AList.lookup_empty]) hdisjoint
    obtain rfl : ipToNode = m' := Except.ok.inj (hmap.symm.trans hm')
    have hends := (exists_linkMetadataOf_iff spec.links _).1 ⟨metadata, hmetadata⟩
    have hnode : ∀ a, (ipToNode.lookup a).isSome → ∃ n ∈ spec.nodes, a ∈ n.addresses := by
      intro a ha
      obtain ⟨id, hid⟩ := Option.isSome_iff_exists.1 ha
      rcases hback a id hid with hempty | hnode
      · simp [AList.lookup_empty] at hempty
      · exact hnode
    exact ⟨hdisjoint, fun l hl => ⟨hnode _ (hends l hl).1, hnode _ (hends l hl).2⟩⟩
  · rintro ⟨hdisjoint, hattached⟩
    obtain ⟨m', hm', -⟩ := exists_mapNodes spec.nodes (m := ∅) (by simp [AList.lookup_empty]) hdisjoint
    have hall := (mapNodes_ok _ hm').2
    have hends : ∀ l ∈ spec.links, (m'.lookup l.source).isSome ∧ (m'.lookup l.target).isSome := by
      intro l hl
      obtain ⟨⟨n, hn, ha⟩, n', hn', ha'⟩ := hattached l hl
      exact ⟨by rw [hall n hn _ ha]; rfl, by rw [hall n' hn' _ ha']; rfl⟩
    obtain ⟨metadata, hmetadata⟩ := (exists_linkMetadataOf_iff spec.links ∅).2 hends
    exact ⟨_, new_eq_ok_iff.2 ⟨m', hm', metadata, hmetadata, rfl⟩⟩

end SimulationVerifier

/-- If `initialize` accepts a network graph, so does the verifier, exactly if no two nodes with different ids have an
address in common and both ends of every link are addresses of nodes. -/
theorem validators_agree_iff (spec : NetworkSpec) (events : NetworkEvents) (simulationStart start now : Nat)
    (disableTimeWarping : Bool) :
    (∀ x, InMemoryNetwork.initializeNetwork spec events simulationStart start now disableTimeWarping = .ok x →
      ∀ order steps, ∃ v, SimulationVerifier.new order steps spec = .ok v) ↔
    ∀ x, InMemoryNetwork.initializeNetwork spec events simulationStart start now disableTimeWarping = .ok x →
      spec.AddressesDisjoint ∧ spec.LinksAttached := by
  constructor
  · intro hagree x hx
    exact (SimulationVerifier.exists_new_iff [] [] spec).1 (hagree x hx [] [])
  · intro hspec x hx order steps
    exact (SimulationVerifier.exists_new_iff order steps spec).2 (hspec x hx)

/-- The second address of host `A` is the address of host `B`. -/
def sharedAddress : NetworkSpec :=
  { nodes := [HostPair.host "A" [HostPair.a₁, HostPair.b] 1000, HostPair.host "B" [HostPair.b] 1000], links := [] }

/-- A link whose target is the address of no node. -/
def detachedLink : NetworkSpec :=
  { nodes := [HostPair.host "A" [HostPair.a₁] 1000, HostPair.host "B" [HostPair.a₂] 1000]
    links := [HostPair.link "a1b" HostPair.a₁ 8000000 0] }

/-- `initialize` accepts both, and the verifier neither. -/
theorem validators_disagree :
    (InMemoryNetwork.initializeNetwork sharedAddress (.new [] sharedAddress.nodes []) 0 0 0 false).isOk ∧
    (SimulationVerifier.new ["A", "B"] [] sharedAddress).isOk = false ∧
    (InMemoryNetwork.initializeNetwork detachedLink (.new [] detachedLink.nodes detachedLink.links) 0 0 0 false).isOk ∧
    (SimulationVerifier.new ["A", "B"] [] detachedLink).isOk = false := by
  decide +kernel

end QuicWorkbench
