import QuicWorkbench.Config.Network
import QuicWorkbench.Network.Connectivity
import QuicWorkbench.Network.Initialize

/-!
# The set-up of a QUIC simulation

`QuicSimulation::run` from the configuration to the endpoints. How the connectivity check goes is in `Network.Connectivity`;
here it is given by its result. Of an endpoint the model has its host and what quinn is configured with, not its
certificates and its files, which are assumed to be there.
-/

namespace QuicWorkbench

/-- Why there are no endpoints. -/
inductive SetUpStop
  /-- An event cannot be read. -/
  | networkEvents (e : String)
  | network (e : InitializeError)
  /-- The panic of `host`. -/
  | notAHost (ip : IpAddr)
  /-- The error of the connectivity check. -/
  | notConnected (e : Connectivity.Error)
  /-- The panic of the connectivity check. -/
  | checkPanicked
  /-- The panic of a lookup in `quic_configs`. -/
  | missingQuicConfig (id : String)
  /-- The panic of `transport_config`. -/
  | quicConfig (e : ConfigPanic)

structure QuicEndpoint where
  host : NodeIx
  transport : TransportConfig

/-- The endpoint of the host bound to the provided address. -/
def quicEndpoint (quicConfigs : HashMap String QuinnJsonConfig) (net : InMemoryNetwork) (ip : IpAddr) :
    Except SetUpStop QuicEndpoint :=
  match net.host ip with
  | none => .error (.notAHost ip)
  | some host =>
    match quicConfigs.lookup (net.node host).id with
    | none => .error (.missingQuicConfig (net.node host).id)
    | some quinnConfig => do
      let transport ← (transportConfig quinnConfig).mapError .quicConfig
      pure { host, transport }

/-- The result of `assert_connectivity_between_hosts` in its network (as in `Connectivity.Check.done`); `none` is its panic. -/
abbrev Checked := Option (Except Connectivity.Error (Nat × Nat))

/-- The connectivity check, which is skipped if time warping is disabled. -/
def connectivityCheck (connectivityCheckNetwork : InMemoryNetwork) (serverIp clientIp : IpAddr) (disableTimeWarping : Bool)
    (checked : Checked) : Except SetUpStop Unit :=
  if disableTimeWarping then .ok ()
  else
    match connectivityCheckNetwork.host serverIp with
    | none => .error (.notAHost serverIp)
    | some _ =>
      match connectivityCheckNetwork.host clientIp with
      | none => .error (.notAHost clientIp)
      | some _ =>
        match checked with
        | none => .error .checkPanicked
        | some (.error e) => .error (.notConnected e)
        | some (.ok _) => .ok ()

structure QuicSimulation where
  network : InMemoryNetwork
  state : State
  server : QuicEndpoint
  client : QuicEndpoint

/-- The connectivity check starts at `start`; the simulation starts at `restart`, when the tracer is created too. -/
def QuicSimulation.setUp (networkGraph : NetworkSpecJson) (networkEvents : List RawNetworkEventJson) (serverIp clientIp : IpAddr)
    (start restart : Nat) (disableTimeWarping : Bool) (checked : Checked) : Except SetUpStop QuicSimulation := do
  let networkEvents ← (networkEvents.mapM NetworkEventJson.tryFrom).mapError .networkEvents
  let quicConfigs := networkGraph.quicConfigs
  let networkSpec := networkGraph.toNetworkSpec
  let networkEvents := NetworkEvents.new (networkEvents.map NetworkEventJson.toNetworkEvent) networkSpec.nodes networkSpec.links
  let (connectivityCheckNetwork, _) ←
    (InMemoryNetwork.initializeNetwork networkSpec networkEvents start start start disableTimeWarping).mapError .network
  connectivityCheck connectivityCheckNetwork serverIp clientIp disableTimeWarping checked
  let (network, state) ←
    (InMemoryNetwork.initializeNetwork networkSpec networkEvents restart restart restart disableTimeWarping).mapError .network
  let server ← quicEndpoint quicConfigs network serverIp
  let client ← quicEndpoint quicConfigs network clientIp
  pure { network, state, server, client }

end QuicWorkbench
