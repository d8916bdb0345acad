import QuicWorkbench.Proofs.Hosts
import QuicWorkbench.Quic.Simulation

/-!
# The configurations get to their endpoints

The QUIC configurations are kept by the ids of their nodes, apart from the network. When the endpoints are set up, none of
them is missing, and each endpoint gets that of its own node (`setUp_ends`).
-/

namespace QuicWorkbench

/-- An event is read exactly if it is about a link or about a node, but not about both. -/
theorem NetworkEventJson.exists_tryFrom_iff {raw : RawNetworkEventJson} :
    (∃ json, NetworkEventJson.tryFrom raw = .ok json) ↔ ¬(raw.link.isSome ↔ raw.node.isSome) := by
  obtain ⟨relativeTimeMs, link, node⟩ := raw
  cases link with
  | none =>
    cases node with
    | none => simp [tryFrom]
    | some node => simp [tryFrom, Except.bind_eq_ok, pure, Except.pure]
  | some link =>
    cases node with
    | none => simp [tryFrom, Except.bind_eq_ok, pure, Except.pure]
    | some node => simp [tryFrom]

namespace NetworkSpecJson
variable {json : NetworkSpecJson} {id : String}

theorem of_lookup_quicConfigs {quinnConfig : QuinnJsonConfig} (h : json.quicConfigs.lookup id = some quinnConfig) :
    ∃ n ∈ json.nodes, n.kind = .host ∧ n.id = id ∧ quinnConfig = n.quic.getD {} := by
  obtain ⟨nodes, links⟩ := json
  unfold quicConfigs at h
  dsimp only at h ⊢
  induction nodes using List.reverseRecOn with
  | nil => simp [AList.lookup_empty] at h
  | append_singleton nodes n ih =>
    rw [List.foldl_append, List.foldl_cons, List.foldl_nil] at h
    have hbefore : ∀ {m : NetworkNodeJson}, m ∈ nodes → m ∈ nodes ++ [n] := fun hm => List.mem_append_left _ hm
    split_ifs at h with hhost
    · by_cases hid : id = n.id
      · subst hid
        rw [AList.lookup_insert] at h
        exact ⟨n, by simp, hhost, rfl, (Option.some.inj h).symm⟩
      · rw [AList.lookup_insert_ne hid] at h
        obtain ⟨m, hm, hkind⟩ := ih h
        exact ⟨m, hbefore hm, hkind⟩
    · obtain ⟨m, hm, hkind⟩ := ih h
      exact ⟨m, hbefore hm, hkind⟩

theorem isSome_quicConfigs {n : NetworkNodeJson} (hn : n ∈ json.nodes) (hhost : n.kind = .host) :
    (json.quicConfigs.lookup n.id).isSome := by
  obtain ⟨nodes, links⟩ := json
  unfold quicConfigs
  dsimp only at hn ⊢
  induction nodes using List.reverseRecOn with
  | nil => simp at hn
  | append_singleton nodes m ih =>
    rw [List.foldl_append, List.foldl_cons, List.foldl_nil]
    by_cases hid : n.id = m.id
    · rcases List.mem_append.1 hn with hn | hn
      · split_ifs
        · rw [hid, AList.lookup_insert]
          rfl
        · exact ih hn
      · obtain rfl := List.mem_singleton.1 hn
        rw [if_pos hhost, AList.lookup_insert]
        rfl
    · have hbefore : n ∈ nodes := by
        rcases List.mem_append.1 hn with hn | hn
        · exact hn
        · exact absurd (congrArg NetworkNodeJson.id (List.mem_singleton.1 hn)) hid
      split_ifs
      · rw [AList.lookup_insert_ne hid]
        exact ih hbefore
      · exact ih hbefore

theorem toNodeKind_eq_host {kind : NetworkNodeKindJson} : kind.toNodeKind = .host ↔ kind = .host := by
  cases kind with
  | router => simp [NetworkNodeKindJson.toNodeKind]
  | host => simp [NetworkNodeKindJson.toNodeKind]

end NetworkSpecJson

/-- The node in the JSON of the host at the index: it has the id of the host, and if all ids are distinct, also its address. -/
structure NetworkNodeJson.Hosts (n : NetworkNodeJson) (json : NetworkSpecJson) (net : InMemoryNetwork) (ip : IpAddr)
    (host : NodeIx) : Prop where
  mem : n ∈ json.nodes
  kind : n.kind = .host
  id : n.id = (net.node host).id
  address : (json.nodes.map (·.id)).Nodup → ip ∈ n.toNetworkNodeSpec.addresses

/-- The endpoint is bound to the address, and is configured as its node says, or by the defaults. -/
structure QuicEndpoint.Configured (e : QuicEndpoint) (json : NetworkSpecJson) (net : InMemoryNetwork) (ip : IpAddr) : Prop where
  bound : (net.node e.host).udpEndpoint = some ⟨⟨ip, hostPort⟩⟩
  config : ∃ n : NetworkNodeJson, n.Hosts json net ip e.host ∧ transportConfig (n.quic.getD {}) = .ok e.transport

section
variable {json : NetworkSpecJson} {net : InMemoryNetwork} {ip : IpAddr} {host : NodeIx}

theorem exists_quicConfig (htables : net.Tables json.toNetworkSpec) (hhost : net.host ip = some host) :
    ∃ n : NetworkNodeJson, n.Hosts json net ip host ∧ json.quicConfigs.lookup (net.node host).id = some (n.quic.getD {}) := by
  obtain ⟨hlookup, hendpoint⟩ := Option.filter_eq_some_iff.1 hhost
  obtain ⟨hlt, haddress⟩ := htables.nodesByAddr _ _ hlookup
  obtain ⟨spec, hspec, hof⟩ := htables.of_node hlt
  obtain ⟨m, hm, rfl⟩ := List.mem_map.1 hspec
  have hkind : m.kind = .host := NetworkSpecJson.toNodeKind_eq_host.1 (hof.host.1 hendpoint)
  have hid : (net.node host).id = m.id := hof.id
  obtain ⟨quinnConfig, hconfig⟩ := Option.isSome_iff_exists.1 (NetworkSpecJson.isSome_quicConfigs hm hkind)
  obtain ⟨n, hn, hnkind, hnid, rfl⟩ := NetworkSpecJson.of_lookup_quicConfigs hconfig
  refine ⟨n, ⟨hn, hnkind, hnid.trans hid.symm, fun hids => ?_⟩, by rw [hid, hconfig]⟩
  obtain rfl := List.inj_on_of_nodup_map hids hn hm hnid
  rw [← hof.addresses]
  exact haddress

theorem quicEndpoint_ends (htables : net.Tables json.toNetworkSpec) :
    (net.host ip = none ∧ quicEndpoint json.quicConfigs net ip = .error (.notAHost ip)) ∨
    ∃ host, ∃ n : NetworkNodeJson, net.host ip = some host ∧ n.Hosts json net ip host ∧ quicEndpoint json.quicConfigs net ip =
      ((transportConfig (n.quic.getD {})).mapError SetUpStop.quicConfig).map fun transport => { host, transport } := by
  cases hhost : net.host ip with
  | none =>
    left
    exact ⟨rfl, by rw [quicEndpoint, hhost]⟩
  | some host =>
    right
    obtain ⟨n, hn, hconfig⟩ := exists_quicConfig htables hhost
    refine ⟨host, n, rfl, hn, ?_⟩
    unfold quicEndpoint
    simp only [hhost, hconfig]
    cases transportConfig (n.quic.getD {}) with
    | error e => rfl
    | ok transport => rfl

/-- Why there is no endpoint at the address: no host has it, or the host cannot be configured as its node says. -/
def SetUpStop.Endpoint (json : NetworkSpecJson) (net : InMemoryNetwork) (ip : IpAddr) : SetUpStop → Prop
  | .networkEvents _ | .network _ | .notConnected _ | .checkPanicked | .missingQuicConfig _ => False
  | .notAHost ip' => ip' = ip ∧ net.host ip = none
  | .quicConfig e => ∃ host, net.host ip = some host ∧ ∃ n : NetworkNodeJson, n.Hosts json net ip host ∧
    transportConfig (n.quic.getD {}) = .error e

theorem quicEndpoint_eq_error (htables : net.Tables json.toNetworkSpec) {stop : SetUpStop}
    (h : quicEndpoint json.quicConfigs net ip = .error stop) : stop.Endpoint json net ip := by
  rcases quicEndpoint_ends htables with ⟨hhost, hends⟩ | ⟨host, n, hhost, hn, hends⟩
  · obtain rfl := Except.error.inj (hends.symm.trans h)
    exact ⟨rfl, hhost⟩
  · rw [hends] at h
    cases hconfig : transportConfig (n.quic.getD {}) with
    | error e =>
      rw [hconfig] at h
      obtain rfl := Except.error.inj h
      exact ⟨host, hhost, n, hn, hconfig⟩
    | ok transport =>
      rw [hconfig] at h
      cases h

theorem quicEndpoint_eq_ok (htables : net.Tables json.toNetworkSpec) {e : QuicEndpoint}
    (h : quicEndpoint json.quicConfigs net ip = .ok e) :
    net.host ip = some e.host ∧ ∃ n : NetworkNodeJson, n.Hosts json net ip e.host ∧
      transportConfig (n.quic.getD {}) = .ok e.transport := by
  rcases quicEndpoint_ends htables with ⟨hhost, hends⟩ | ⟨host, n, hhost, hn, hends⟩
  · rw [hends] at h
    cases h
  · rw [hends] at h
    cases hconfig : transportConfig (n.quic.getD {}) with
    | error e' =>
      rw [hconfig] at h
      cases h
    | ok transport =>
      rw [hconfig] at h
      obtain rfl := Except.ok.inj h
      exact ⟨hhost, n, hn, hconfig⟩

end

section
variable (networkGraph : NetworkSpecJson) (networkEvents : List RawNetworkEventJson) (serverIp clientIp : IpAddr)
  (start restart : Nat) (disableTimeWarping : Bool) (checked : Checked)

/-- The network of the graph with these events starts at the instant, for the connectivity check or for the simulation. -/
def initializeFor (events : List NetworkEventJson) (start : Nat) : Except InitializeError (InMemoryNetwork × State) :=
  let spec := networkGraph.toNetworkSpec
  InMemoryNetwork.initializeNetwork spec (.new (events.map NetworkEventJson.toNetworkEvent) spec.nodes spec.links) start start
    start disableTimeWarping

/-- How the set-up may end once the events are read: with the network in a state that it reaches and two endpoints that are
configured as their nodes say, or with a stop that has its reason. -/
def QuicSimulation.EndsWith (events : List NetworkEventJson) : Except SetUpStop QuicSimulation → Prop
  | .ok q =>
    Reaches disableTimeWarping networkGraph.toNetworkSpec (events.map NetworkEventJson.toNetworkEvent) q.network q.state ∧
      q.server.Configured networkGraph q.network serverIp ∧ q.client.Configured networkGraph q.network clientIp ∧
      (disableTimeWarping ∨ ∃ arrived, checked = some (.ok arrived))
  | .error (.network e) => initializeFor networkGraph disableTimeWarping events start = .error e ∨
    initializeFor networkGraph disableTimeWarping events restart = .error e
  | .error (.notConnected e) => disableTimeWarping = false ∧ checked = some (.error e)
  | .error .checkPanicked => disableTimeWarping = false ∧ checked = none
  | .error stop => ∃ net s,
    Reaches disableTimeWarping networkGraph.toNetworkSpec (events.map NetworkEventJson.toNetworkEvent) net s ∧
      (stop.Endpoint networkGraph net serverIp ∨ stop.Endpoint networkGraph net clientIp)

/-- How the set-up may end: an event that cannot be read is about a link and a node, or about neither. -/
def QuicSimulation.SetUpEnds : Except SetUpStop QuicSimulation → Prop
  | .error (.networkEvents e) => ∃ raw ∈ networkEvents, NetworkEventJson.tryFrom raw = .error e ∧
    (raw.link.isSome ↔ raw.node.isSome)
  | result => ∃ events, networkEvents.mapM NetworkEventJson.tryFrom = .ok events ∧
    EndsWith networkGraph serverIp clientIp start restart disableTimeWarping checked events result

variable {networkGraph serverIp clientIp disableTimeWarping start restart checked}

theorem reaches_of_initializeFor {events : List NetworkEventJson} {net : InMemoryNetwork} {s : State}
    (h : initializeFor networkGraph disableTimeWarping events start = .ok (net, s)) :
    Reaches disableTimeWarping networkGraph.toNetworkSpec (events.map NetworkEventJson.toNetworkEvent) net s ∧
      net.Tables networkGraph.toNetworkSpec := by
  have hbuild := (InMemoryNetwork.initializeNetwork_ok h).1
  exact ⟨⟨start, start, start, s, [], le_rfl, le_rfl, h, rfl⟩, InMemoryNetwork.buildNetwork_tables hbuild⟩

theorem QuicSimulation.EndsWith.of_endpoint {events : List NetworkEventJson} {net : InMemoryNetwork} {s : State}
    {stop : SetUpStop}
    (hreach : Reaches disableTimeWarping networkGraph.toNetworkSpec (events.map NetworkEventJson.toNetworkEvent) net s)
    (h : stop.Endpoint networkGraph net serverIp ∨ stop.Endpoint networkGraph net clientIp) :
    EndsWith networkGraph serverIp clientIp start restart disableTimeWarping checked events (.error stop) := by
  cases stop with
  | notAHost ip => exact ⟨net, s, hreach, h⟩
  | quicConfig e => exact ⟨net, s, hreach, h⟩
  | networkEvents e => exact (h.elim id id).elim
  | network e => exact (h.elim id id).elim
  | notConnected e => exact (h.elim id id).elim
  | checkPanicked => exact (h.elim id id).elim
  | missingQuicConfig id => exact ⟨net, s, hreach, h⟩

theorem endsWith_of_connectivityCheck {events : List NetworkEventJson} {net : InMemoryNetwork} {s : State} {stop : SetUpStop}
    (hreach : Reaches disableTimeWarping networkGraph.toNetworkSpec (events.map NetworkEventJson.toNetworkEvent) net s)
    (h : connectivityCheck net serverIp clientIp disableTimeWarping checked = .error stop) :
    QuicSimulation.EndsWith networkGraph serverIp clientIp start restart disableTimeWarping checked events (.error stop) := by
  unfold connectivityCheck at h
  split_ifs at h with hwarping
  have hwarping : disableTimeWarping = false := by simpa using hwarping
  cases hserver : net.host serverIp with
  | none =>
    rw [hserver] at h
    obtain rfl := Except.error.inj h
    exact .of_endpoint hreach (.inl ⟨rfl, hserver⟩)
  | some server =>
    cases hclient : net.host clientIp with
    | none =>
      rw [hserver, hclient] at h
      obtain rfl := Except.error.inj h
      exact .of_endpoint hreach (.inr ⟨rfl, hclient⟩)
    | some client =>
      rw [hserver, hclient] at h
      match checked, h with
      | none, h =>
        obtain rfl := Except.error.inj h
        exact ⟨hwarping, rfl⟩
      | some (.error e), h =>
        obtain rfl := Except.error.inj h
        exact ⟨hwarping, rfl⟩

theorem checked_of_connectivityCheck {net : InMemoryNetwork}
    (h : connectivityCheck net serverIp clientIp disableTimeWarping checked = .ok ()) :
    disableTimeWarping ∨ ∃ arrived, checked = some (.ok arrived) := by
  unfold connectivityCheck at h
  split_ifs at h with hwarping
  · exact .inl hwarping
  · right
    split at h
    · cases h
    · split at h
      · cases h
      · match checked, h with
        | some (.ok arrived), _ => exact ⟨arrived, rfl⟩

theorem QuicSimulation.EndsWith.setUpEnds {networkEvents : List RawNetworkEventJson} {events : List NetworkEventJson}
    {result : Except SetUpStop QuicSimulation} (hevents : networkEvents.mapM NetworkEventJson.tryFrom = .ok events)
    (h : EndsWith networkGraph serverIp clientIp start restart disableTimeWarping checked events result) :
    SetUpEnds networkGraph networkEvents serverIp clientIp start restart disableTimeWarping checked result := by
  cases result with
  | ok q => exact ⟨events, hevents, h⟩
  | error stop =>
    cases stop with
    | networkEvents e =>
      obtain ⟨net, s, -, h⟩ := h
      exact (h.elim id id).elim
    | network e => exact ⟨events, hevents, h⟩
    | notAHost ip => exact ⟨events, hevents, h⟩
    | notConnected e => exact ⟨events, hevents, h⟩
    | checkPanicked => exact ⟨events, hevents, h⟩
    | missingQuicConfig id => exact ⟨events, hevents, h⟩
    | quicConfig e => exact ⟨events, hevents, h⟩

variable (networkGraph serverIp clientIp start restart disableTimeWarping checked) in
/-- No configuration is missing, and no endpoint gets that of another node. -/
theorem setUp_ends :
    QuicSimulation.SetUpEnds networkGraph networkEvents serverIp clientIp start restart disableTimeWarping checked
      (QuicSimulation.setUp networkGraph networkEvents serverIp clientIp start restart disableTimeWarping checked) := by
  generalize hresult : QuicSimulation.setUp networkGraph networkEvents serverIp clientIp start restart disableTimeWarping
    checked = result
  unfold QuicSimulation.setUp at hresult
  cases result with
  | ok q =>
    obtain ⟨events, hevents, hresult⟩ := Except.bind_eq_ok.1 hresult
    obtain ⟨⟨checkNet, s₁⟩, -, hresult⟩ := Except.bind_eq_ok.1 hresult
    obtain ⟨⟨⟩, hcheck, hresult⟩ := Except.bind_eq_ok.1 hresult
    obtain ⟨⟨net, s⟩, hinit, hresult⟩ := Except.bind_eq_ok.1 hresult
    obtain ⟨server, hserver, hresult⟩ := Except.bind_eq_ok.1 hresult
    obtain ⟨client, hclient, hresult⟩ := Except.bind_eq_ok.1 hresult
    obtain rfl := Except.ok.inj hresult
    obtain ⟨hreach, htables⟩ := reaches_of_initializeFor (Except.mapError_eq_ok.1 hinit)
    have hbuild := (InMemoryNetwork.initializeNetwork_ok (Except.mapError_eq_ok.1 hinit)).1
    obtain ⟨hhost, hconfig⟩ := quicEndpoint_eq_ok htables hserver
    obtain ⟨hhost', hconfig'⟩ := quicEndpoint_eq_ok htables hclient
    exact ⟨events, Except.mapError_eq_ok.1 hevents, hreach, ⟨InMemoryNetwork.buildNetwork_bound hbuild hhost, hconfig⟩,
      ⟨InMemoryNetwork.buildNetwork_bound hbuild hhost', hconfig'⟩, checked_of_connectivityCheck hcheck⟩
  | error stop =>
    rcases Except.bind_eq_error.1 hresult with hevents | ⟨events, hevents, hresult⟩
    · obtain ⟨e, hread, rfl⟩ := Except.mapError_eq_error.1 hevents
      obtain ⟨raw, hraw, he⟩ := Except.exists_of_mapM_eq_error hread
      refine ⟨raw, hraw, he, ?_⟩
      by_contra hone
      obtain ⟨json, hok⟩ := NetworkEventJson.exists_tryFrom_iff.2 hone
      cases he.symm.trans hok
    refine QuicSimulation.EndsWith.setUpEnds (Except.mapError_eq_ok.1 hevents) ?_
    rcases Except.bind_eq_error.1 hresult with hinit | ⟨⟨checkNet, s₁⟩, hinit, hresult⟩
    · obtain ⟨e, he, rfl⟩ := Except.mapError_eq_error.1 hinit
      exact .inl he
    obtain ⟨hreach, -⟩ := reaches_of_initializeFor (Except.mapError_eq_ok.1 hinit)
    rcases Except.bind_eq_error.1 hresult with hcheck | ⟨⟨⟩, -, hresult⟩
    · exact endsWith_of_connectivityCheck hreach hcheck
    rcases Except.bind_eq_error.1 hresult with hinit | ⟨⟨net, s⟩, hinit, hresult⟩
    · obtain ⟨e, he, rfl⟩ := Except.mapError_eq_error.1 hinit
      exact .inr he
    obtain ⟨hreach, htables⟩ := reaches_of_initializeFor (Except.mapError_eq_ok.1 hinit)
    rcases Except.bind_eq_error.1 hresult with hserver | ⟨server, -, hresult⟩
    · exact .of_endpoint hreach (.inl (quicEndpoint_eq_error htables hserver))
    rcases Except.bind_eq_error.1 hresult with hclient | ⟨client, -, hresult⟩
    · exact .of_endpoint hreach (.inr (quicEndpoint_eq_error htables hclient))
    · cases hresult

end

namespace HostPair

def nodeJson (id : String) (addresses : List (BitVec 32)) (quic : Option QuinnJsonConfig) : NetworkNodeJson :=
  { id, quic
    bufferSizeBytes := 1000
    kind := .host
    interfaces := [{ addresses := addresses.map fun a => ⟨⟨a, 24⟩⟩, routes := [] }] }

def linkJson (id : String) (source : BitVec 32) : NetworkLinkJson :=
  { id
    source := .v4 source
    target := .v4 b
    bandwidthBps := 8000000
    delayMs := 5 }

/-- A graph with a configuration for host `A` only. -/
def json (quic : QuinnJsonConfig) : NetworkSpecJson :=
  { nodes := [nodeJson "A" [a₁, a₂] (some quic), nodeJson "B" [b] none]
    links := [linkJson "a1b" a₁, linkJson "a2b" a₂] }

end HostPair

/-- The connectivity check has passed; host `B` is configured by the defaults, host `A` without congestion control. -/
theorem setUp_hostPair :
    ∃ q, QuicSimulation.setUp (HostPair.json { congestionController := some .noCc }) [] (.v4 HostPair.b) (.v4 HostPair.a₁) 0 1
      false (some (.ok (5, 5))) = .ok q ∧ q.client.transport.congestionControllerFactory = .noCc (.ofNat u64Max) ∧
    q.server.transport.congestionControllerFactory = .cubic none ∧
    QuicSimulation.SetUpEnds (HostPair.json { congestionController := some .noCc }) [] (.v4 HostPair.b) (.v4 HostPair.a₁) 0 1
      false (some (.ok (5, 5))) (.ok q) := by
  have hends := setUp_ends (HostPair.json { congestionController := some .noCc }) [] (.v4 HostPair.b) (.v4 HostPair.a₁) 0 1
    false (some (.ok (5, 5)))
  have hok : (QuicSimulation.setUp (HostPair.json { congestionController := some .noCc }) [] (.v4 HostPair.b)
      (.v4 HostPair.a₁) 0 1 false (some (.ok (5, 5)))).toOption.any (fun q =>
        q.client.transport.congestionControllerFactory = .noCc (.ofNat u64Max) ∧
          q.server.transport.congestionControllerFactory = .cubic none) := by
    decide +kernel
  cases hq : QuicSimulation.setUp (HostPair.json { congestionController := some .noCc }) [] (.v4 HostPair.b)
      (.v4 HostPair.a₁) 0 1 false (some (.ok (5, 5))) with
  | error stop =>
    rw [hq] at hok
    cases hok
  | ok q =>
    rw [hq] at hok hends
    obtain ⟨hclient, hserver⟩ := of_decide_eq_true hok
    exact ⟨q, rfl, hclient, hserver, hends⟩

end QuicWorkbench
