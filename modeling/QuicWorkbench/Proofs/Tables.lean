import QuicWorkbench.Lib.Sums
import QuicWorkbench.Network.Initialize
import QuicWorkbench.Tracing.Verifier
import Mathlib.Data.List.Forall2

/-!
# The tables of a network graph

`initialize` and `SimulationVerifier::new` build their tables from the same network graph. `Tables` says
what the simulator's tables hold: the nodes are those of the graph, the hosts first; the links are those
of the graph; and what a map finds is what was asked for. `VerifierTables` says the same of the verifier.
-/

namespace QuicWorkbench

theorem isSome_lookup_insert {K V : Type} [DecidableEq K] {m : HashMap K V} {id u : K} {x : V} :
    ((m.insert id x).lookup u).isSome ↔ (m.lookup u).isSome ∨ u = id := by
  by_cases h : u = id
  · subst h
    simp
  · simp [h, AList.lookup_insert_ne h]

/-! ### Nodes -/

/-- The node is built from the node of the graph. -/
structure Node.Of (spec : NetworkNodeSpec) (node : Node) : Prop where
  id : node.id = spec.id
  addresses : node.addresses = spec.addresses
  capacityBytes : node.capacityBytes = spec.bufferSizeBytes
  host : node.udpEndpoint.isSome ↔ spec.kind = .host

/-- The nodes in the order in which they are built. -/
def NetworkSpec.builtNodes (spec : NetworkSpec) : List NetworkNodeSpec :=
  spec.nodes.filter (·.kind = .host) ++ spec.nodes.filter (·.kind ≠ .host)

theorem NetworkSpec.builtNodes_perm (spec : NetworkSpec) : spec.builtNodes.Perm spec.nodes := by
  have h := List.filter_append_perm (fun n : NetworkNodeSpec => decide (n.kind = .host)) spec.nodes
  simpa [builtNodes] using h

namespace InMemoryNetwork

/-- What the tables of nodes hold, with the nodes of `specs` added. -/
structure NodeTables.Inv (specs : List NetworkNodeSpec) (t : NodeTables) : Prop where
  nodes : List.Forall₂ Node.Of specs t.nodes
  byAddr : ∀ a i, t.byAddr.lookup a = some i → i < t.nodes.length ∧ a ∈ (t.nodes.getD i default).addresses
  byId : ∀ id i, t.byId.lookup id = some i → i < t.nodes.length ∧ (t.nodes.getD i default).id = id
  byId_self : (specs.map NetworkNodeSpec.id).Nodup → ∀ i < t.nodes.length,
    t.byId.lookup (t.nodes.getD i default).id = some i

theorem getD_snoc_left {nodes : List Node} {n : Node} {i : Nat} (h : i < nodes.length) :
    (nodes ++ [n]).getD i default = nodes.getD i default := by
  simp [List.getD_eq_getElem?_getD, List.getElem?_append_left h]

theorem getD_snoc_self {nodes : List Node} {n : Node} : (nodes ++ [n]).getD nodes.length default = n := by
  simp [List.getD_eq_getElem?_getD]

theorem NodeTables.Inv.snoc {specs : List NetworkNodeSpec} {t t' : NodeTables} {spec : NetworkNodeSpec} {n : Node}
    (h : t.Inv specs) (hn : Node.Of spec n) (hnodes : t'.nodes = t.nodes ++ [n])
    (hid : t'.byId = t.byId.insert n.id t.nodes.length)
    (haddr : ∀ a i, t'.byAddr.lookup a = some i → t.byAddr.lookup a = some i ∨ i = t.nodes.length ∧ a ∈ n.addresses) :
    t'.Inv (specs ++ [spec]) where
  nodes := by rw [hnodes]; exact List.rel_append h.nodes (.cons hn .nil)
  byAddr a i ha := by
    rw [hnodes, List.length_append]
    rcases haddr a i ha with ha | ⟨rfl, hmem⟩
    · obtain ⟨hlt, hmem⟩ := h.byAddr a i ha
      rw [getD_snoc_left hlt]
      exact ⟨Nat.lt_succ_of_lt hlt, hmem⟩
    · rw [getD_snoc_self]
      exact ⟨Nat.lt_succ_self _, hmem⟩
  byId id i hi := by
    rw [hnodes, List.length_append]
    rw [hid] at hi
    by_cases heq : id = n.id
    · subst heq
      obtain rfl : t.nodes.length = i := by simpa [AList.lookup_insert] using hi
      rw [getD_snoc_self]
      exact ⟨Nat.lt_succ_self _, rfl⟩
    · rw [AList.lookup_insert_ne heq] at hi
      obtain ⟨hlt, hmem⟩ := h.byId id i hi
      rw [getD_snoc_left hlt]
      exact ⟨Nat.lt_succ_of_lt hlt, hmem⟩
  byId_self hnodup i hi := by
    rw [hnodes, List.length_append] at hi
    rw [List.map_append, List.nodup_append] at hnodup
    obtain ⟨hnodup, -, hdisj⟩ := hnodup
    rw [hnodes, hid]
    rcases Nat.lt_succ_iff_lt_or_eq.1 hi with hlt | rfl
    · rw [getD_snoc_left hlt, AList.lookup_insert_ne, h.byId_self hnodup i hlt]
      rw [hn.id]
      refine hdisj _ ?_ _ (by simp)
      -- the id of an earlier node is that of an earlier node of the graph
      have hlen : i < specs.length := by rw [h.nodes.length_eq]; exact hlt
      have hof := h.nodes.get hlen hlt
      rw [List.getD_eq_getElem?_getD, List.getElem?_eq_getElem hlt, Option.getD_some]
      exact List.mem_map.2 ⟨specs[i], List.getElem_mem hlen, hof.id.symm⟩
    · rw [getD_snoc_self, AList.lookup_insert]

theorem host_of {spec : NetworkNodeSpec} {n : Node} {endpoint : UdpEndpoint} (h : Node.host spec = .ok (n, endpoint)) :
    Node.Of spec n ∧ n.udpEndpoint = some endpoint ∧ endpoint.addr.ip ∈ n.addresses := by
  unfold Node.host at h
  split_ifs at h with hkind
  split at h
  · simp at h
  · rename_i interface interfaces hinterfaces
    split at h
    · simp at h
    · rename_i address addresses haddresses
      obtain ⟨rfl, rfl⟩ := by simpa using h
      refine ⟨⟨rfl, rfl, rfl, ?_⟩, rfl, ?_⟩
      · simpa [Node.ofSpec] using hkind
      · simp [Node.ofSpec, NetworkNodeSpec.addresses, hinterfaces, haddresses]

theorem router_of {spec : NetworkNodeSpec} {n : Node} (h : Node.router spec = .ok n) (hkind : spec.kind ≠ .host) :
    Node.Of spec n := by
  unfold Node.router at h
  split_ifs at h
  obtain rfl := Except.ok.inj h
  exact ⟨rfl, rfl, rfl, by simpa [Node.ofSpec] using hkind⟩

theorem addHost_inv {specs : List NetworkNodeSpec} {t t' : NodeTables} {spec : NetworkNodeSpec} (h : t.Inv specs)
    (hok : addHost t spec = .ok t') : t'.Inv (specs ++ [spec]) := by
  unfold addHost at hok
  split at hok
  · simp at hok
  · rename_i n endpoint hhost
    obtain ⟨hof, -, hmem⟩ := host_of hhost
    dsimp only at hok
    split_ifs at hok
    obtain rfl := Except.ok.inj hok
    refine h.snoc hof rfl rfl fun a i ha => ?_
    by_cases heq : a = endpoint.addr.ip
    · subst heq
      obtain rfl : t.nodes.length = i := by simpa [AList.lookup_insert] using ha
      exact .inr ⟨rfl, hmem⟩
    · rw [AList.lookup_insert_ne heq] at ha
      exact .inl ha

theorem addAddresses_ok {router : Node} {i : NodeIx} (addresses : List IpAddr) {t t' : NodeTables}
    (hok : addAddresses t router i addresses = .ok t') : t'.nodes = t.nodes ∧ t'.byId = t.byId ∧
      ∀ a i', t'.byAddr.lookup a = some i' → t.byAddr.lookup a = some i' ∨ i' = i ∧ a ∈ addresses := by
  induction addresses generalizing t with
  | nil =>
    obtain rfl := Except.ok.inj hok
    exact ⟨rfl, rfl, fun a i' ha => .inl ha⟩
  | cons address addresses ih =>
    rw [addAddresses] at hok
    split at hok
    · simp at hok
    · obtain ⟨hnodes, hid, haddr⟩ := ih hok
      refine ⟨hnodes, hid, fun a i' ha => ?_⟩
      rcases haddr a i' ha with ha | ⟨rfl, ha⟩
      · by_cases heq : a = address
        · subst heq
          obtain rfl : i = i' := by simpa [AList.lookup_insert] using ha
          exact .inr ⟨rfl, List.mem_cons_self ..⟩
        · rw [AList.lookup_insert_ne heq] at ha
          exact .inl ha
      · exact .inr ⟨rfl, List.mem_cons_of_mem _ ha⟩

theorem addRouter_inv {specs : List NetworkNodeSpec} {t t' : NodeTables} {spec : NetworkNodeSpec} (h : t.Inv specs)
    (hkind : spec.kind ≠ .host) (hok : addRouter t spec = .ok t') : t'.Inv (specs ++ [spec]) := by
  unfold addRouter at hok
  split at hok
  · simp at hok
  · rename_i n hrouter
    obtain ⟨t₁, haddresses, hok⟩ := Except.bind_eq_ok.1 hok
    obtain rfl := Except.pure_eq_ok.1 hok
    obtain ⟨hnodes, hid, haddr⟩ := addAddresses_ok n.addresses haddresses
    exact h.snoc (router_of hrouter hkind) (by rw [hnodes]) hid haddr

/-! ### Links -/

/-- What the tables of links hold, with the links added. -/
structure LinkTables.Inv (specs : List NetworkLinkSpec) (t : LinkTables) : Prop where
  links : t.links = specs
  byAddr : ∀ a b j, t.byAddr.lookup (a, b) = some j → j < specs.length ∧ (specs.getD j default).source = a ∧
    (specs.getD j default).target = b
  byId : ∀ id j, t.byId.lookup id = some j ↔ j < specs.length ∧ (specs.getD j default).id = id
  nodup : (specs.map NetworkLinkSpec.id).Nodup

theorem addLink_inv {links : List NetworkLinkSpec} {t t' : LinkTables} {l : NetworkLinkSpec} (h : t.Inv links)
    (hok : addLink t l = .ok t') : t'.Inv (links ++ [l]) := by
  unfold addLink at hok
  dsimp only at hok
  split at hok
  · simp at hok
  split_ifs at hok with hid
  obtain rfl := Except.ok.inj hok
  have hlinks := h.links
  have hleft : ∀ j < links.length, (links ++ [l]).getD j default = links.getD j default := fun j hj => by
    simp [List.getD_eq_getElem?_getD, List.getElem?_append_left hj]
  have hself : (links ++ [l]).getD links.length default = l := by simp [List.getD_eq_getElem?_getD]
  have hnew : ∀ j < links.length, (links.getD j default).id ≠ l.id := fun j hj heq => by
    rw [(h.byId l.id j).2 ⟨hj, heq⟩] at hid
    simp at hid
  refine ⟨by simp [hlinks], fun a b j hj => ?_, fun id j => ?_, ?_⟩
  · rw [hlinks] at hj
    by_cases heq : (a, b) = (l.source, l.target)
    · rw [heq, AList.lookup_insert] at hj
      obtain rfl := Option.some.inj hj
      obtain ⟨rfl, rfl⟩ := by simpa using heq
      rw [hself]
      simp
    · rw [AList.lookup_insert_ne heq] at hj
      obtain ⟨hlt, hrest⟩ := h.byAddr a b j hj
      rw [hleft j hlt]
      exact ⟨by rw [List.length_append]; exact Nat.lt_succ_of_lt hlt, hrest⟩
  · rw [hlinks]
    by_cases heq : id = l.id
    · subst heq
      rw [AList.lookup_insert]
      constructor
      · intro hj
        obtain rfl := Option.some.inj hj
        rw [hself]
        simp
      · rintro ⟨hlt, hj⟩
        rcases Nat.lt_succ_iff_lt_or_eq.1 (by simpa using hlt) with hlt | rfl
        · rw [hleft j hlt] at hj
          exact absurd hj (hnew j hlt)
        · rfl
    · rw [AList.lookup_insert_ne heq, h.byId]
      constructor
      · rintro ⟨hlt, hj⟩
        rw [hleft j hlt]
        exact ⟨by rw [List.length_append]; exact Nat.lt_succ_of_lt hlt, hj⟩
      · rintro ⟨hlt, hj⟩
        rcases Nat.lt_succ_iff_lt_or_eq.1 (by simpa using hlt) with hlt | rfl
        · rw [hleft j hlt] at hj
          exact ⟨hlt, hj⟩
        · rw [hself] at hj
          exact absurd hj.symm heq
  · rw [List.map_append, List.nodup_append]
    refine ⟨h.nodup, by simp, fun id hid' id' hid'' => ?_⟩
    obtain ⟨l', hl', rfl⟩ := List.mem_map.1 hid'
    obtain rfl : id' = l.id := by simpa using hid''
    obtain ⟨j, hj, rfl⟩ := List.getElem_of_mem hl'
    have := hnew j hj
    rwa [List.getD_eq_getElem?_getD, List.getElem?_eq_getElem hj, Option.getD_some] at this

/-! ### The network -/

/-- What the tables of the network hold. -/
structure Tables (spec : NetworkSpec) (net : InMemoryNetwork) : Prop where
  nodes : List.Forall₂ Node.Of spec.builtNodes net.nodes
  links : net.links = spec.links
  nodesByAddr : ∀ a i, net.nodesByAddr.lookup a = some i → i < net.nodes.length ∧ a ∈ (net.node i).addresses
  nodesById : ∀ id i, net.nodesById.lookup id = some i → i < net.nodes.length ∧ (net.node i).id = id
  nodesById_self : (spec.nodes.map NetworkNodeSpec.id).Nodup → ∀ i < net.nodes.length,
    net.nodesById.lookup (net.node i).id = some i
  linksByAddr : ∀ a b j, net.linksByAddr.lookup (a, b) = some j → j < net.links.length ∧ (net.link j).source = a ∧
    (net.link j).target = b
  linksById : ∀ id j, net.linksById.lookup id = some j ↔ j < net.links.length ∧ (net.link j).id = id
  linkIds : (spec.links.map NetworkLinkSpec.id).Nodup

theorem buildNetwork_tables {spec : NetworkSpec} {simulationStart start : Nat} {net : InMemoryNetwork}
    (h : buildNetwork spec simulationStart start = .ok net) : Tables spec net := by
  obtain ⟨-, t₁, tl, t₂, hhosts, hlinks, hrouters, rfl⟩ := exists_of_buildNetwork h
  have h₀ : NodeTables.Inv [] {} := ⟨.nil, by simp, by simp, by simp⟩
  have h₁ : NodeTables.Inv _ t₁ := Except.foldlM_ok_induction (I := fun specs t => NodeTables.Inv specs t) _
    (fun pre a _ b b' hI hok => addHost_inv hI hok) h₀ hhosts
  have h₂ : NodeTables.Inv (spec.nodes.filter (·.kind = .host) ++ spec.nodes.filter (·.kind ≠ .host)) t₂ := by
    refine Except.foldlM_ok_induction (I := fun specs t => NodeTables.Inv specs t) _ (fun pre a ha b b' hI hok => ?_) h₁ hrouters
    exact addRouter_inv hI (by simpa using (List.mem_filter.1 ha).2) hok
  have hl₀ : LinkTables.Inv [] {} := ⟨rfl, by simp, by simp, by simp⟩
  have hl : LinkTables.Inv spec.links tl := Except.foldlM_ok_induction (I := fun links t => LinkTables.Inv links t) _
    (fun pre a _ b b' hI hok => addLink_inv hI hok) hl₀ hlinks
  have hnodup : (spec.nodes.map NetworkNodeSpec.id).Nodup → (spec.builtNodes.map NetworkNodeSpec.id).Nodup :=
    fun hnd => (spec.builtNodes_perm.map _).nodup_iff.2 hnd
  refine ⟨h₂.nodes, hl.links, h₂.byAddr, h₂.byId, fun hnd => h₂.byId_self (hnodup hnd), ?_, ?_, hl.nodup⟩
  · intro a b j hj
    have := hl.byAddr a b j hj
    rwa [← hl.links] at this
  · intro id j
    have := hl.byId id j
    rwa [← hl.links] at this

theorem Tables.of_mem {spec : NetworkSpec} {net : InMemoryNetwork} (h : Tables spec net) {node : Node}
    (hnode : node ∈ net.nodes) : ∃ n ∈ spec.nodes, Node.Of n node := by
  obtain ⟨i, hi, rfl⟩ := List.getElem_of_mem hnode
  have hlen : i < spec.builtNodes.length := h.nodes.length_eq ▸ hi
  exact ⟨spec.builtNodes[i], spec.builtNodes_perm.subset (List.getElem_mem hlen), h.nodes.get hlen hi⟩

theorem node_eq_getElem {net : InMemoryNetwork} {i : NodeIx} (hi : i < net.nodes.length) : net.node i = net.nodes[i] := by
  rw [InMemoryNetwork.node, List.getD_eq_getElem?_getD, List.getElem?_eq_getElem hi, Option.getD_some]

theorem Tables.of_node {spec : NetworkSpec} {net : InMemoryNetwork} (h : Tables spec net) {i : NodeIx}
    (hi : i < net.nodes.length) : ∃ n ∈ spec.nodes, Node.Of n (net.node i) :=
  node_eq_getElem hi ▸ h.of_mem (List.getElem_mem hi)

theorem Tables.node_of {spec : NetworkSpec} {net : InMemoryNetwork} (h : Tables spec net) {n : NetworkNodeSpec}
    (hn : n ∈ spec.nodes) : ∃ i < net.nodes.length, Node.Of n (net.node i) := by
  obtain ⟨i, hi, rfl⟩ := List.getElem_of_mem (spec.builtNodes_perm.mem_iff.2 hn)
  have hlen : i < net.nodes.length := h.nodes.length_eq ▸ hi
  exact ⟨i, hlen, node_eq_getElem hlen ▸ h.nodes.get hi hlen⟩

/-- No two nodes have the id. -/
def IdUnique (net : InMemoryNetwork) (id : String) : Prop :=
  ∀ i i', i < net.nodes.length → i' < net.nodes.length → (net.node i).id = id → (net.node i').id = id → i = i'

theorem Tables.idUnique {spec : NetworkSpec} {net : InMemoryNetwork} (h : Tables spec net)
    (hids : (spec.nodes.map NetworkNodeSpec.id).Nodup) (id : String) : net.IdUnique id := by
  rintro i i' hi hi' hid hid'
  have hlookup := h.nodesById_self hids i hi
  rw [hid, ← hid', h.nodesById_self hids i' hi'] at hlookup
  exact (Option.some.inj hlookup).symm

theorem mapM_id_eq_some {α : Type} {l : List (Option α)} {as : List α} (h : l.mapM id = some as) : l = as.map some := by
  induction l generalizing as with
  | nil =>
    obtain rfl : [] = as := by simpa using h
    rfl
  | cons x l ih =>
    cases x with
    | none => simp at h
    | some a =>
      rw [List.mapM_cons] at h
      obtain ⟨rest, hrest, heq⟩ := Option.bind_eq_some_iff.1 (show (l.mapM id).bind (fun rest => some (a :: rest)) = some as by
        simpa using h)
      obtain rfl := Option.some.inj heq
      rw [ih hrest, List.map_cons]

theorem Tables.of_mem_candidateLinks {spec : NetworkSpec} {net : InMemoryNetwork} (h : Tables spec net) {node : Node}
    {dest : IpAddr} {links : List LinkIx} (hlinks : net.candidateLinks node dest = some links) {j : LinkIx}
    (hj : j ∈ links) : j < net.links.length ∧ (net.link j).source ∈ node.addresses := by
  have hwalk : some j ∈ net.walkLinks node dest := by
    rw [mapM_id_eq_some hlinks]
    exact List.mem_map_of_mem hj
  obtain ⟨a, b, ha, hlookup⟩ : ∃ a b, a ∈ node.addresses ∧ net.linksByAddr.lookup (a, b) = some j := by
    rcases List.mem_append.1 hwalk with hdirect | hrouted
    · obtain ⟨a, ha, hlookup⟩ := List.mem_filterMap.1 hdirect
      exact ⟨a, dest, ha, by simpa using hlookup⟩
    · obtain ⟨a, ha, hmem⟩ := List.mem_flatMap.1 hrouted
      split at hmem
      · simp at hmem
      · obtain ⟨b, -, hlookup⟩ := List.mem_filterMap.1 hmem
        exact ⟨a, b, ha, by simpa using hlookup⟩
  obtain ⟨hlt, hsource, -⟩ := h.linksByAddr a b j hlookup
  exact ⟨hlt, hsource ▸ ha⟩

end InMemoryNetwork

/-! ### The verifier -/

namespace SimulationVerifier

theorem mapAddresses_ok {nodeId : String} (addrs : List Ipv4Cidr) {m m' : HashMap IpAddr String}
    (h : mapAddresses nodeId addrs m = .ok m') : (∀ a id, m.lookup a = some id → m'.lookup a = some id) ∧
      ∀ c ∈ addrs, m'.lookup c.asIpAddr = some nodeId := by
  have hinsert : ∀ (m : HashMap IpAddr String) (addr : IpAddr), (∀ id, m.lookup addr = some id → id = nodeId) →
      ∀ a id, m.lookup a = some id → (m.insert addr nodeId).lookup a = some id := by
    intro m addr hsame a id ha
    by_cases heq : a = addr
    · subst heq
      rw [AList.lookup_insert, hsame id ha]
    · rwa [AList.lookup_insert_ne heq]
  induction addrs generalizing m with
  | nil =>
    obtain rfl := Except.ok.inj h
    exact ⟨fun a id ha => ha, by simp⟩
  | cons addr addrs ih =>
    have hgo : ∀ (m₁ : HashMap IpAddr String), m₁ = m.insert addr.asIpAddr nodeId →
        (∀ id, m.lookup addr.asIpAddr = some id → id = nodeId) → mapAddresses nodeId addrs m₁ = .ok m' →
        (∀ a id, m.lookup a = some id → m'.lookup a = some id) ∧
          ∀ c ∈ addr :: addrs, m'.lookup c.asIpAddr = some nodeId := by
      rintro m₁ rfl hsame hok
      obtain ⟨hkeep, hall⟩ := ih hok
      refine ⟨fun a id ha => hkeep a id (hinsert m _ hsame a id ha), fun c hc => ?_⟩
      rcases List.mem_cons.1 hc with rfl | hc
      · exact hkeep _ _ (AList.lookup_insert _)
      · exact hall c hc
    rw [mapAddresses] at h
    split at h
    · rename_i existing hexisting
      split_ifs at h with hne
      refine hgo _ rfl (fun id hid => ?_) h
      rw [hexisting] at hid
      obtain rfl := Option.some.inj hid
      simpa using hne
    · rename_i hnone
      exact hgo _ rfl (fun id hid => by simp [hnone] at hid) h

theorem mapNodes_ok (nodes : List NetworkNodeSpec) {m m' : HashMap IpAddr String} (h : mapNodes nodes m = .ok m') :
    (∀ a id, m.lookup a = some id → m'.lookup a = some id) ∧
      ∀ n ∈ nodes, ∀ a ∈ n.addresses, m'.lookup a = some n.id := by
  induction nodes generalizing m with
  | nil =>
    obtain rfl := Except.ok.inj h
    exact ⟨fun a id ha => ha, by simp⟩
  | cons n nodes ih =>
    obtain ⟨m₁, hm, h⟩ := Except.bind_eq_ok.1 h
    obtain ⟨hkeep₁, hall₁⟩ := mapAddresses_ok _ hm
    obtain ⟨hkeep, hall⟩ := ih h
    refine ⟨fun a id ha => hkeep a id (hkeep₁ a id ha), fun n' hn' a ha => ?_⟩
    rcases List.mem_cons.1 hn' with rfl | hn'
    · simp only [NetworkNodeSpec.addresses, List.mem_flatMap, List.mem_map] at ha
      obtain ⟨i, hi, c, hc, rfl⟩ := ha
      exact hkeep _ _ (hall₁ c (List.mem_flatMap.2 ⟨i, hi, hc⟩))
    · exact hall n' hn' a ha

/-- The metadata of the link, looked up in the map of addresses. -/
def MetadataOf (ipToNode : HashMap IpAddr String) (l : NetworkLinkSpec) (m : LinkMetadata) : Prop :=
  ipToNode.lookup l.source = some m.sourceNodeId ∧ ipToNode.lookup l.target = some m.targetNodeId ∧
    m.delay = l.delay ∧ m.bandwidthBps = l.bandwidthBps

theorem linkMetadataOf_ok {ipToNode : HashMap IpAddr String} (links : List NetworkLinkSpec)
    {metadata metadata' : HashMap String LinkMetadata} (h : linkMetadataOf ipToNode links metadata = .ok metadata')
    (hnodup : (links.map NetworkLinkSpec.id).Nodup) :
    (∀ id, id ∉ links.map NetworkLinkSpec.id → metadata'.lookup id = metadata.lookup id) ∧
      ∀ l ∈ links, ∃ m, metadata'.lookup l.id = some m ∧ MetadataOf ipToNode l m := by
  induction links generalizing metadata with
  | nil =>
    obtain rfl := Except.ok.inj h
    exact ⟨fun id _ => rfl, by simp⟩
  | cons l links ih =>
    rw [List.map_cons, List.nodup_cons] at hnodup
    rw [linkMetadataOf] at h
    split at h
    · simp at h
    · simp at h
    · rename_i source target htarget hsource
      obtain ⟨hkeep, hall⟩ := ih h hnodup.2
      refine ⟨fun id hid => ?_, fun l' hl' => ?_⟩
      · rw [List.map_cons, List.mem_cons, not_or] at hid
        rw [hkeep id hid.2, AList.lookup_insert_ne hid.1]
      · rcases List.mem_cons.1 hl' with rfl | hl'
        · refine ⟨_, (hkeep _ hnodup.1).trans (AList.lookup_insert _), ?_⟩
          exact ⟨by assumption, by assumption, rfl, rfl⟩
        · exact hall l' hl'

theorem lookup_foldl_insert {α V : Type} (key : α → String) (value : String → α → V)
    (as : List α) (m : HashMap String V) (id : String) :
    (∃ a ∈ as, key a = id ∧ (as.foldl (fun m a => m.insert (key a) (value (key a) a)) m).lookup id = some (value id a)) ∨
      id ∉ as.map key ∧ (as.foldl (fun m a => m.insert (key a) (value (key a) a)) m).lookup id = m.lookup id := by
  have hlookup := AList.lookup_foldl_insert key (fun a => value (key a) a) as m id
  cases hfind : as.reverse.find? fun a => key a = id with
  | none =>
    right
    refine ⟨fun hmem => ?_, by rw [hlookup, hfind, Option.map_none, Option.none_or]⟩
    obtain ⟨a, ha, hkey⟩ := List.mem_map.1 hmem
    exact absurd (List.find?_eq_none.1 hfind a (List.mem_reverse.2 ha)) (by simpa using hkey)
  | some a =>
    left
    have hkey : key a = id := by simpa using List.find?_some hfind
    refine ⟨a, List.mem_reverse.1 (List.mem_of_find?_eq_some hfind), hkey, ?_⟩
    rw [hlookup, hfind, Option.map_some, Option.some_or, hkey]

/-- What the tables of a new verifier hold. -/
structure Tables (spec : NetworkSpec) (steps : List SimulationStep) (v : SimulationVerifier) : Prop where
  steps : v.steps = steps.insertionSort fun a b => a.relativeTime ≤ b.relativeTime
  nodes : ∀ id n, v.nodes.lookup id = some n ↔ id ∈ spec.nodes.map NetworkNodeSpec.id ∧ n = .new id
  links : ∀ id l, v.links.lookup id = some l ↔ id ∈ spec.links.map NetworkLinkSpec.id ∧ l = {}
  hostNodes : ∀ id, id ∈ v.hostNodes ↔ ∃ n ∈ spec.nodes, n.kind = .host ∧ n.id = id
  nodeMetadata : ∀ id ∈ spec.nodes.map NetworkNodeSpec.id, (v.nodeMetadata.lookup id).isSome
  bufferSizes : ∀ id m, v.nodeMetadata.lookup id = some m →
    ∃ n ∈ spec.nodes, n.id = id ∧ m.bufferSizeBytes = n.bufferSizeBytes
  linkMetadata : (spec.links.map NetworkLinkSpec.id).Nodup → ∀ l ∈ spec.links, ∃ m, v.linkMetadata.lookup l.id = some m ∧
    m.delay = l.delay ∧ m.bandwidthBps = l.bandwidthBps ∧
    (∀ n ∈ spec.nodes, l.source ∈ n.addresses → m.sourceNodeId = n.id) ∧
    ∀ n ∈ spec.nodes, l.target ∈ n.addresses → m.targetNodeId = n.id

theorem new_tables {order : List String} {steps : List SimulationStep} {spec : NetworkSpec} {v : SimulationVerifier}
    (h : SimulationVerifier.new order steps spec = .ok v) : v.Tables spec steps := by
  obtain ⟨ipToNode, hmap, metadata, hmetadata, rfl⟩ := new_eq_ok_iff.1 h
  have haddr := (mapNodes_ok _ hmap).2
  constructor
  case steps => rfl
  case nodes =>
    intro id n
    rcases lookup_foldl_insert NetworkNodeSpec.id (fun id _ => ReplayedNode.new id) spec.nodes ∅ id with
      ⟨a, ha, hkey, hlookup⟩ | ⟨hnot, hlookup⟩
    · rw [hlookup, Option.some.injEq]
      constructor
      · rintro rfl
        exact ⟨List.mem_map.2 ⟨a, ha, hkey⟩, rfl⟩
      · rintro ⟨-, rfl⟩
        rfl
    · rw [hlookup]
      simp [hnot, AList.lookup_empty]
  case links =>
    intro id l
    rcases lookup_foldl_insert NetworkLinkSpec.id (fun _ _ => ({} : ReplayedLink)) spec.links ∅ id with
      ⟨a, ha, hkey, hlookup⟩ | ⟨hnot, hlookup⟩
    · rw [hlookup, Option.some.injEq]
      constructor
      · rintro rfl
        exact ⟨List.mem_map.2 ⟨a, ha, hkey⟩, rfl⟩
      · rintro ⟨-, rfl⟩
        rfl
    · rw [hlookup]
      simp [hnot, AList.lookup_empty]
  case hostNodes =>
    intro id
    simp [and_assoc]
  case nodeMetadata =>
    intro id hid
    rcases lookup_foldl_insert NetworkNodeSpec.id (fun _ n => NodeMetadata.mk n.bufferSizeBytes) spec.nodes ∅ id with
      ⟨a, ha, hkey, hlookup⟩ | ⟨hnot, hlookup⟩
    · rw [hlookup]
      rfl
    · exact absurd hid hnot
  case bufferSizes =>
    intro id m hm
    rcases lookup_foldl_insert NetworkNodeSpec.id (fun _ n => NodeMetadata.mk n.bufferSizeBytes) spec.nodes ∅ id with
      ⟨a, ha, hkey, hlookup⟩ | ⟨-, hlookup⟩
    · obtain rfl := Option.some.inj (hlookup.symm.trans hm)
      exact ⟨a, ha, hkey, rfl⟩
    · simp [hlookup, AList.lookup_empty] at hm
  case linkMetadata =>
    intro hnodup l hl
    obtain ⟨m, hlookup, hsource, htarget, hdelay, hbandwidth⟩ := (linkMetadataOf_ok _ hmetadata hnodup).2 l hl
    refine ⟨m, hlookup, hdelay, hbandwidth, fun n hn ha => ?_, fun n hn ha => ?_⟩
    · rw [haddr n hn _ ha] at hsource
      exact (Option.some.inj hsource).symm
    · rw [haddr n hn _ ha] at htarget
      exact (Option.some.inj htarget).symm

section
variable {spec : NetworkSpec} {steps : List SimulationStep} {v : SimulationVerifier}

theorem Tables.new_node (h : v.Tables spec steps) : ∀ id n, v.nodes.lookup id = some n → n = .new id :=
  fun id n hn => ((h.nodes id n).1 hn).2

theorem Tables.new_link (h : v.Tables spec steps) : ∀ id l, v.links.lookup id = some l → l = {} :=
  fun id l hl => ((h.links id l).1 hl).2

theorem Tables.sorted (h : v.Tables spec steps) : v.steps.Pairwise fun a b => a.relativeTime ≤ b.relativeTime := by
  rw [h.steps]
  exact List.pairwise_insertionSort (fun a b : SimulationStep => a.relativeTime ≤ b.relativeTime) steps

end

end SimulationVerifier
end QuicWorkbench
