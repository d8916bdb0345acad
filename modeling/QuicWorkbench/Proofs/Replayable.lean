import QuicWorkbench.Proofs.Accounted

/-!
# Logs that can be replayed

With distinct packet ids, every packet of a run is accounted for, so `verify` gets to the end of the log. The errors
that it may report on the way are about buffer sizes, bandwidths, nodes that are down, and links that went down and
were back up before a packet arrived (`MayReport`).
-/

namespace QuicWorkbench

/-- The errors that `verify` may report for the log of a run. -/
inductive MayReport (net : InMemoryNetwork) : NonFatalError → Prop
  | exceedsBufferSize (nodeId : String) (size usage : Nat) : MayReport net (.nodeExceedsBufferSize nodeId size usage)
  | downSend (nodeId : String) (id : Uuid) : MayReport net (.nodeDownPacketSend nodeId id)
  | downReceive (nodeId : String) (id : Uuid) : MayReport net (.nodeDownPacketReceive nodeId id)
  | offlineReceive (nodeId linkId : String) (sent lastDown : Nat) :
      MayReport net (.offlinePacketReceive nodeId linkId sent lastDown)
  | exceedsBandwidth (nodeId linkId : String) (id : Uuid) (max observed : Nat) :
      MayReport net (.linkBandwidthExceeded nodeId linkId id max observed)
  /-- The replay has one status for all nodes with the id. -/
  | sharedId (i : NodeIx) (id : Uuid) (h : ¬ net.IdUnique (net.node i).id) :
      MayReport net (.nodeUpPacketDroppedOnArrival (net.node i).id id)

/-- The errors that `verify` never reports for the log of a run in which no two nodes have the same id. -/
def NonFatalError.isImpossible : NonFatalError → Bool
  | .missingLostPacket _ | .packetCreatedByRouterNode .. | .offlinePacketSend .. | .disconnectedPacketSend ..
  | .disconnectedPacketReceive .. | .tooFastPacketReceive .. | .nodeUpPacketDroppedOnArrival ..
  | .packetSurvivedBufferCorruption .. => true
  | _ => false

theorem MayReport.allows (net : InMemoryNetwork) : Allows (MayReport net) where
  exceedsBufferSize nodeId size usage := .exceedsBufferSize nodeId size usage
  downSend nodeId id := .downSend nodeId id
  downReceive nodeId id := .downReceive nodeId id
  exceedsBandwidth nodeId linkId id max observed := .exceedsBandwidth nodeId linkId id max observed

theorem MayReport.isImpossible {net : InMemoryNetwork} {e : NonFatalError} (h : MayReport net e)
    (hids : ∀ id, net.IdUnique id) : e.isImpossible = false := by
  cases h with
  | sharedId i id hshared => exact absurd (hids _) hshared
  | _ => rfl

/-! ### What only grows -/

theorem Effect.generated {net : InMemoryNetwork} {σ σ' : Scene} (h : Effect net σ σ') :
    σ.state.generated <+: σ'.state.generated := by
  cases h with
  | create h s i endpoint transmit uuid => exact List.prefix_append _ _
  | duplicate h s i d uuid => exact List.prefix_append _ _
  | offer h s i packet outbound links rolls =>
    rw [(State.pushCopies_rest net i packet links links rolls (s.takeOutbound i packet outbound links)).2.1]
    exact List.prefix_rfl
  | panicOffer h s i packet outbound links done rest j rolls =>
    show s.generated <+: (State.pushCopies net i packet links done rolls (s.takeOutbound i packet outbound links)).generated
    rw [(State.pushCopies_rest net i packet links done rolls (s.takeOutbound i packet outbound links)).2.1]
    exact List.prefix_rfl
  | _ => exact List.prefix_rfl

theorem LinkEffect.generated {net : InMemoryNetwork} {s s' : State} {j : LinkIx} (h : LinkEffect net j s s') :
    s'.generated = s.generated := by
  cases h with
  | park p s₁ task hp => obtain ⟨queue, rfl⟩ := hp.eq_dequeue; rfl
  | discard p p' s₁ hp => obtain ⟨queue, rfl⟩ := hp.eq_dequeue; rfl
  | clear p p' s₁ hp => obtain ⟨queue, rfl⟩ := hp.eq_dequeue; rfl
  | send p p' s₁ data slot hp => obtain ⟨queue, rfl⟩ := hp.eq_dequeue; rfl
  | panicSend p p' s₁ hp => obtain ⟨queue, rfl⟩ := hp.eq_dequeue; rfl

theorem Logs.grows {net : InMemoryNetwork} {K : SimulationStepKind → Prop} {s s' : State} (h : Logs net K s s') :
    s.log <+: s'.log := by
  cases h with
  | same heq => exact heq ▸ List.prefix_rfl
  | step kind hkind heq => exact heq ▸ List.prefix_append _ _

theorem ClearsUnique.of_prefix {net : InMemoryNetwork} {log log' : List SimulationStep} (h : ClearsUnique net log')
    (hle : log <+: log') : ClearsUnique net log :=
  fun step hstep => h step (hle.subset hstep)

/-! ### The run -/

/-- As long as packet ids are new, and clear-buffer events name one node each, the packets are accounted for. -/
structure ReplayInv (net : InMemoryNetwork) (v : SimulationVerifier) (P : NonFatalError → Prop) (σ : Scene) : Prop where
  stays : StaysInv net σ.state
  accounted : σ.state.generated.Nodup → ClearsUnique net σ.state.log → Accounted net v P σ

namespace ReplayInv
variable {net : InMemoryNetwork} {v : SimulationVerifier} {P P' : NonFatalError → Prop} {σ σ' : Scene} {s s' : State}
  {spec : NetworkSpec} {j : LinkIx}

theorem mono (h : ReplayInv net v P σ) (hP : ∀ e, P e → P' e) : ReplayInv net v P' σ :=
  ⟨h.stays, fun hgen hclears => (h.accounted hgen hclears).mono hP⟩

variable (hk : v.Knows net) (htables : net.Tables spec) (hP : Allows P)
include hk htables hP

theorem effect (hshared : ∀ i id, ¬ net.IdUnique (net.node i).id → P (.nodeUpPacketDroppedOnArrival (net.node i).id id))
    (h : ReplayInv net v P σ) (hexcused : Excused net P σ σ'.state.log) (he : Effect net σ σ') : ReplayInv net v P σ' where
  stays := (StaysInv.preserved net).effect σ σ' he h.stays
  accounted hgen hclears :=
    (h.accounted (hgen.sublist he.generated.sublist) (hclears.of_prefix he.logs.grows)).effect hk htables hP hshared
      h.stays hexcused hgen he

theorem linkEffect (h : ReplayInv net v P ⟨[], s⟩) (hj : j < net.links.length) (he : LinkEffect net j s s') :
    ReplayInv net v P ⟨[], s'⟩ where
  stays := h.stays.linkEffect he
  accounted hgen hclears :=
    (h.accounted (he.generated ▸ hgen) (hclears.of_prefix he.logs.grows)).linkEffect hk htables hP h.stays hj he

theorem linkEvent {event : LinkEventPayload} (h : ReplayInv net v P ⟨[], s⟩) :
    ReplayInv net v P ⟨[], s.processLinkEvent net event⟩ where
  stays := h.stays.event (s.processLinkEvent_frame net event)
  accounted hgen hclears :=
    (h.accounted ((s.processLinkEvent_frame net event).generated ▸ hgen)
      (hclears.of_prefix (s.linkEvent_logs net event).grows)).linkEvent hk htables hP

omit hk in
theorem nodeEvent {event : NodeEventPayload} (h : ReplayInv net v P ⟨[], s⟩) :
    ReplayInv net v P ⟨[], s.processNodeEvent net event⟩ where
  stays := h.stays.event (s.processNodeEvent_frame net event)
  accounted hgen hclears :=
    (h.accounted ((s.processNodeEvent_frame net event).generated ▸ hgen)
      (hclears.of_prefix (s.nodeEvent_logs net event).grows)).nodeEvent htables hP hclears

omit hk htables hP in
theorem events (h : ReplayInv net v P ⟨[], s⟩) (events : List NetworkEvent) :
    ReplayInv net v P ⟨[], { s with events }⟩ where
  stays := { h.stays with }
  accounted hgen hclears := by
    obtain ⟨w, hw, hr⟩ := h.accounted hgen hclears
    refine ⟨w, hw.quiet (.of_history (.inl rfl) (fun _ => rfl) (fun _ => rfl) (fun _ _ h => h) fun _ _ h => .copy h) rfl rfl
      (List.Sublist.refl _), hr.frame rfl (fun _ => rfl) (fun _ => rfl) fun _ => rfl⟩

end ReplayInv

namespace SimulationVerifier
variable {spec : NetworkSpec} {net : InMemoryNetwork} {v : SimulationVerifier} {steps : List SimulationStep}

theorem mirror_start (htables : net.Tables spec) (hv : v.Tables spec steps) (now : Nat) (events : List NetworkEvent) :
    Mirror net v (net.initialState now events) (fun _ => none) v.start := by
  have hnode : ∀ id n, v.start.nodes.lookup id = some n → n = .new id := fun id n hn => ((hv.nodes id n).1 hn).2
  have hlink : ∀ id l, v.start.links.lookup id = some l → l = {} := fun id l hl => ((hv.links id l).1 hl).2
  refine ⟨⟨fun id n hn => ?_, fun id l hl => ?_, fun id n hn => ?_, fun id n hn => ?_⟩, fun id t => ?_, fun i hi => ?_,
    fun j hj => ?_⟩
  · rw [hnode id n hn]
    rfl
  · rw [hlink id l hl]
    rfl
  · exact hv.nodeMetadata id ((hv.nodes id n).1 hn).1
  · rw [hnode id n hn]
    rfl
  · refine iff_of_false ?_ (by simp)
    cases t with
    | inFlight f => simp [Replay.Has, start, AList.lookup_empty]
    | buffered a p =>
      rintro ⟨n, hn, hp⟩
      rw [hnode a n hn] at hp
      simp [ReplayedNode.new, AList.lookup_empty] at hp
  · have hid : (net.node i).id ∈ spec.nodes.map NetworkNodeSpec.id := by
      obtain ⟨n, hn, hof⟩ := htables.of_node hi
      exact List.mem_map.2 ⟨n, hn, hof.id.symm⟩
    have hlookup : v.start.nodes.lookup (net.node i).id = some (.new (net.node i).id) := (hv.nodes _ _).2 ⟨hid, rfl⟩
    exact ⟨.up, by rw [Replay.nodeState, hlookup]; rfl, fun _ => rfl⟩
  · have hid : (net.link j).id ∈ spec.links.map NetworkLinkSpec.id := by
      rw [← htables.links, InMemoryNetwork.link, List.getD_eq_getElem?_getD, List.getElem?_eq_getElem hj, Option.getD_some]
      exact List.mem_map_of_mem (List.getElem_mem hj)
    have hlookup : v.start.links.lookup (net.link j).id = some {} := (hv.links _ _).2 ⟨hid, rfl⟩
    rw [Replay.linkState, hlookup]
    rfl

end SimulationVerifier

theorem ReplayInv.preserved {spec : NetworkSpec} {net : InMemoryNetwork} {v : SimulationVerifier} (hk : v.Knows net)
    (htables : net.Tables spec) : Preserved net (ReplayInv net v (MayReport net)) where
  effect _ _ he h := h.effect hk htables (MayReport.allows net) (fun _ _ hi => .sharedId _ _ hi)
    (fun _ _ _ _ _ _ _ _ _ _ _ => .offlineReceive ..) he
  link _ _ _ hj he h := h.linkEffect hk htables (MayReport.allows net) hj he
  linkEvent _ _ h := h.linkEvent hk htables (MayReport.allows net)
  nodeEvent _ _ h := h.nodeEvent htables (MayReport.allows net)
  events _ events h := h.events events

theorem ReplayInv.initial {spec : NetworkSpec} {net : InMemoryNetwork} {v : SimulationVerifier}
    {steps : List SimulationStep} {P : NonFatalError → Prop} (htables : net.Tables spec) (hv : v.Tables spec steps)
    (now : Nat) (events : List NetworkEvent) (hnow : net.simulationStart ≤ now) :
    ReplayInv net v P ⟨[], net.initialState now events⟩ where
  stays := .initial net now events
  accounted _ _ := ⟨fun _ => none, .initial net now events hnow, v.start, Tracked.within_pure_iff.2 rfl,
    v.mirror_start htables hv now events⟩

/-- The verifier gets to the end of the log of the run, and finds nothing but what `P` allows. -/
theorem ReplayInv.verify {spec : NetworkSpec} {net : InMemoryNetwork} {v : SimulationVerifier} {s : State}
    {order : List String} {P : NonFatalError → Prop} (h : ReplayInv net v P ⟨[], s⟩) (hlog : LogInv net s)
    (hP : Allows P) (hnew : SimulationVerifier.new order s.log spec = .ok v) (hgen : s.generated.Nodup)
    (hclears : ClearsUnique net s.log) :
    ∃ verified, v.verify = some (.ok verified) ∧ ∀ e ∈ verified.nonFatalErrors, P e := by
  obtain ⟨w, -, hr⟩ := h.accounted hgen hclears
  refine hr.verify hP ?_
  rw [(SimulationVerifier.new_tables hnew).steps, hlog.insertionSort_eq]

section
variable {spec : NetworkSpec} {events : List NetworkEvent} {net : InMemoryNetwork} {s : State} {order : List String}
  {v : SimulationVerifier} {disableTimeWarping : Bool}

theorem Reaches.tables (h : Reaches disableTimeWarping spec events net s) : net.Tables spec := by
  obtain ⟨simulationStart, start, now, s₀, actions, -, -, hinit, -⟩ := h
  exact InMemoryNetwork.buildNetwork_tables (InMemoryNetwork.initializeNetwork_ok hinit).1

theorem Reaches.logInv (h : Reaches disableTimeWarping spec events net s) : LogInv net s :=
  (LogInv.preserved net).reaches (fun now events _ => .initial net now events) h

theorem Reaches.replayInv (h : Reaches disableTimeWarping spec events net s)
    (hnew : SimulationVerifier.new order s.log spec = .ok v) : ReplayInv net v (MayReport net) ⟨[], s⟩ := by
  have htables := h.tables
  have hv := SimulationVerifier.new_tables hnew
  have hk : v.Knows net := SimulationVerifier.knows_of_tables htables hv
  exact (ReplayInv.preserved hk htables).reaches (fun now events hnow => .initial htables hv now events hnow) h

/-- The log of every run can be replayed: there is no fatal error, and none of the errors about packets that are
missing, too early, or where they cannot be. -/
theorem verify_ok_of_reaches (hreach : Reaches false spec events net s)
    (hids : (spec.nodes.map NetworkNodeSpec.id).Nodup) (hgen : s.generated.Nodup)
    (hnew : SimulationVerifier.new order s.log spec = .ok v) :
    ∃ verified, v.verify = some (.ok verified) ∧ ∀ e ∈ verified.nonFatalErrors, e.isImpossible = false := by
  have hunique := hreach.tables.idUnique hids
  obtain ⟨verified, hok, herrors⟩ := (hreach.replayInv hnew).verify hreach.logInv (MayReport.allows net) hnew hgen
    (fun _ _ _ _ _ _ _ => hunique _)
  exact ⟨verified, hok, fun e he => (herrors e he).isImpossible hunique⟩

end

namespace HostPair

/-- Host `A` sends a packet, which gets to host `B` and is read there. -/
def deliver (uuid : Uuid) : List Action :=
  sendFromA uuid ++ [.linkTask 0 0, .advance (Duration.fromMillis 5), .forwarder 0 fun _ => draws 0, .pollRecv 1 1]

end HostPair

/-- The log of a packet that is delivered can be replayed. -/
theorem verify_ok_hostPair : ∃ net s v verified, Reaches false (hostPair 8000000 0) [] net s ∧
    SimulationVerifier.new ["A", "B"] s.log (hostPair 8000000 0) = .ok v ∧
    (s.log.map (·.kind)).contains (.packetDeliveredToApplication
      { packetId := 1, packetNumber := 0, packetSizeBytes := 128, nodeId := "B" }) ∧
    v.verify = some (.ok verified) ∧ ∀ e ∈ verified.nonFatalErrors, e.isImpossible = false := by
  obtain ⟨net, s, hreach, hs⟩ := exists_reaches_of_simulate (hostPair 8000000 0) [] (HostPair.deliver 1)
    (fun _ s => (s.log.map (·.kind)).contains (.packetDeliveredToApplication
        { packetId := 1, packetNumber := 0, packetSizeBytes := 128, nodeId := "B" }) &&
      decide s.generated.Nodup && (SimulationVerifier.new ["A", "B"] s.log (hostPair 8000000 0)).isOk)
    (by decide +kernel)
  simp only [Bool.and_eq_true, decide_eq_true_eq] at hs
  obtain ⟨⟨hdelivered, hgen⟩, hok⟩ := hs
  obtain ⟨v, hnew⟩ := Except.isOk_iff.1 hok
  obtain ⟨verified, hverify, herrors⟩ := verify_ok_of_reaches hreach (by decide) hgen hnew
  exact ⟨net, s, v, verified, hreach, hnew, hdelivered, hverify, herrors⟩

end QuicWorkbench
