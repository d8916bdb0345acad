import QuicWorkbench.Proofs.Verified

/-!
# Packets are conserved in the statistics

Every packet that a node sent was received, was lost by a link or is still in flight, and every packet that came into
a node left it or is still in its buffer. The first balance is over all nodes and links, and needs that a packet that is
sent is not in flight already; the second is kept at each node by every step.
-/

namespace QuicWorkbench

namespace SimulationVerifier

/-! ### Sums over nodes -/

theorem UsagesUpdated.sumOf_eq {nodes nodes' : HashMap String ReplayedNode} (h : UsagesUpdated nodes nodes')
    {f : ReplayedNode → Nat} (hf : ∀ n maxBufferUsage, f { n with maxBufferUsage } = f n) :
    AList.sumOf f nodes' = AList.sumOf f nodes := by
  refine AList.sumOf_congr fun nodeId => ?_
  rcases h nodeId with ⟨hnone, hnone'⟩ | ⟨n, usage, hn, hn'⟩
  · rw [hnone, hnone']
  · rw [hn, hn', Option.map_some, Option.map_some, hf]

/-- A step adds to a sum over the nodes what it adds at the node that it is about. -/
theorem sumOf_visited {inFlight : Uuid → Bool} {kind : SimulationStepKind} {now : Nat}
    {nodes nodes' : HashMap String ReplayedNode} (h : NodesVisit inFlight kind now nodes nodes') {f : ReplayedNode → Nat} {d : Nat}
    (hnone : kind.nodeId = none → d = 0) (hvisit : ∀ n n', Visit inFlight kind now n n' → f n' = f n + d) :
    AList.sumOf f nodes' = AList.sumOf f nodes + d := by
  cases h with
  | none hid => rw [hnone hid, Nat.add_zero]
  | @node nodeId n n' hid hn h =>
    have hsum := AList.sumOf_insert_of_some (f := f) n' hn
    have hn' := hvisit n n' h
    omega

end SimulationVerifier

/-! ### Packets in flight -/

/-- What a step makes of the packets in flight and of the statistics of the links. -/
inductive FlightsStep (kind : SimulationStepKind) (flights : HashMap Uuid InFlightPacket) (stats : HashMap String LinkStats) :
    HashMap Uuid InFlightPacket → HashMap String LinkStats → Prop
  | same (hreceives : kind.receives (fun id => (flights.lookup id).isSome) = false) (hsends : kind.sends = false) :
      FlightsStep kind flights stats flights stats
  | received {id : Uuid} {f : InFlightPacket} (hreceives : kind.receives (fun id => (flights.lookup id).isSome) = true)
      (hsends : kind.sends = false) (hf : flights.lookup id = some f) : FlightsStep kind flights stats (flights.erase id) stats
  | lost {id : Uuid} {f : InFlightPacket} (linkId : String)
      (hreceives : kind.receives (fun id => (flights.lookup id).isSome) = false) (hsends : kind.sends = false)
      (hf : flights.lookup id = some f) : FlightsStep kind flights stats (flights.erase id) (stats.insert linkId
        { (stats.lookup linkId).getD {} with
          droppedInTransit := ((stats.lookup linkId).getD {}).droppedInTransit.trackOne f.sizeBytes })
  | sent {s : PacketInTransit} (f : InFlightPacket) (hkind : kind = .packetInTransit s) :
      FlightsStep kind flights stats (flights.insert s.packetId f) stats

namespace SimulationVerifier
variable {v : SimulationVerifier} {P : NonFatalError → Prop} {r r' : Replay} {now : Nat}

theorem replayKind_flights {kind : SimulationStepKind} (h : (v.replayKind r now kind).Within P r') :
    FlightsStep kind r.inFlightPackets r.statsByLink r'.inFlightPackets r'.statsByLink := by
  cases kind with
  | packetInNode s =>
    cases hf : r.inFlightPackets.lookup s.packetId with
    | some f =>
      obtain ⟨metadata, link, n, n', -, -, -, -, -, -, -, -, rfl⟩ := (packetInNode_within_iff_of_inFlight hf).1 h
      exact .received (by simp [SimulationStepKind.receives, hf]) rfl hf
    | none =>
      obtain ⟨n, n', -, -, -, rfl⟩ := (packetInNode_within_iff_of_created hf).1 h
      exact .same (by simp [SimulationStepKind.receives, hf]) rfl
  | packetLostInTransit s =>
    have hrest := packetLostInTransit_within_iff.1 h
    cases hf : r.inFlightPackets.lookup s.packetId with
    | some f =>
      simp only [hf] at hrest
      rw [hrest]
      exact .lost s.linkId rfl rfl hf
    | none =>
      simp only [hf] at hrest
      rw [hrest.2]
      exact .same rfl rfl
  | packetInTransit s =>
    obtain ⟨n, packet, n', metadata, link, link', usage, -, -, -, -, -, -, -, -, rfl⟩ := packetInTransit_within_iff.1 h
    exact .sent _ rfl
  | packetDuplicated s =>
    obtain ⟨n, n', -, -, rfl⟩ := packetDuplicated_within_iff.1 h
    exact .same rfl rfl
  | packetDropped s =>
    obtain ⟨n, n', -, -, rfl⟩ := packetDropped_within_iff.1 h
    exact .same rfl rfl
  | packetExtraDelay s =>
    obtain ⟨n, n', -, -, rfl⟩ := packetExtraDelay_within_iff.1 h
    exact .same rfl rfl
  | packetCongestionEvent s =>
    obtain ⟨n, -, rfl⟩ := packetCongestionEvent_within_iff.1 h
    exact .same rfl rfl
  | packetDeliveredToApplication s =>
    obtain ⟨n, n', -, -, rfl⟩ := packetDeliveredToApplication_within_iff.1 h
    exact .same rfl rfl
  | networkEvent e =>
    obtain ⟨links, ⟨-, rfl⟩ | ⟨payload, n, -, -, rfl⟩⟩ := exists_of_networkEvent h
    · exact .same rfl rfl
    · exact .same rfl rfl

end SimulationVerifier

/-- The packets that the links have lost. -/
def LinkStats.lost (stats : LinkStats) : Nat := stats.droppedInTransit.packets

/-- As long as no packet is sent that is in flight already, the packets in flight change by those that are sent, received
and lost. -/
theorem FlightsStep.balance {kind : SimulationStepKind} {flights flights' : HashMap Uuid InFlightPacket}
    {stats stats' : HashMap String LinkStats} (h : FlightsStep kind flights stats flights' stats')
    (hnew : ∀ s, kind = .packetInTransit s → flights.lookup s.packetId = none) :
    AList.sumOf (fun _ => 1) flights' + AList.sumOf LinkStats.lost stats' +
        (if kind.receives (fun id => (flights.lookup id).isSome) then 1 else 0) =
      AList.sumOf (fun _ => 1) flights + AList.sumOf LinkStats.lost stats + if kind.sends then 1 else 0 := by
  cases h with
  | same hreceives hsends => simp [hreceives, hsends]
  | received hreceives hsends hf =>
    have herase := AList.sumOf_erase (f := fun _ => 1) hf
    simp only [hreceives, hsends, if_true, Bool.false_eq_true, if_false]
    omega
  | @lost id f linkId hreceives hsends hf =>
    have herase := AList.sumOf_erase (f := fun _ => 1) hf
    have hlost := AList.sumOf_insert_getD (f := LinkStats.lost) (m := stats) (d := {}) rfl linkId
      { (stats.lookup linkId).getD {} with
        droppedInTransit := ((stats.lookup linkId).getD {}).droppedInTransit.trackOne f.sizeBytes }
    simp only [hreceives, hsends, Bool.false_eq_true, if_false]
    simp only [LinkStats.lost, PacketStats.trackOne] at hlost ⊢
    omega
  | @sent s f hkind =>
    subst hkind
    have hinsert := AList.sumOf_insert_of_none (f := fun _ => 1) f (hnew s rfl)
    simp only [SimulationStepKind.receives, SimulationStepKind.sends, Bool.false_eq_true, if_false, if_true]
    omega

/-! ### Replays -/

/-- Created packets of the node. -/
def createdAfter (steps : List SimulationStep) (nodeId : String) : Nat :=
  foldAlong (fun before created step =>
    created + if step.kind.nodeId = some nodeId ∧ step.kind.creates (inFlightAfter before) then 1 else 0) 0 steps

/-- Packets that the node delivered to the application. -/
def deliveredAfter (steps : List SimulationStep) (nodeId : String) : Nat :=
  steps.countP fun step => step.kind.nodeId = some nodeId ∧ step.kind.delivers

theorem createdAfter_snoc (steps : List SimulationStep) (step : SimulationStep) (nodeId : String) :
    createdAfter (steps ++ [step]) nodeId = createdAfter steps nodeId +
      if step.kind.nodeId = some nodeId ∧ step.kind.creates (inFlightAfter steps) then 1 else 0 := foldAlong_snoc

theorem deliveredAfter_snoc (steps : List SimulationStep) (step : SimulationStep) (nodeId : String) :
    deliveredAfter (steps ++ [step]) nodeId = deliveredAfter steps nodeId +
      if step.kind.nodeId = some nodeId ∧ step.kind.delivers then 1 else 0 := by
  simp [deliveredAfter, List.countP_append, List.countP_singleton]

namespace SimulationVerifier
variable {v : SimulationVerifier} {P : NonFatalError → Prop} {r r' : Replay} {steps : List SimulationStep}

/-- The packets that came into a node left it, or are still in its buffer. -/
theorem node_balance (hnew : ∀ id n, v.nodes.lookup id = some n → n = .new id) (h : (v.replay v.start steps).Within P r) :
    ∀ nodeId n, r.nodes.lookup nodeId = some n →
      n.entered + createdAfter steps nodeId = n.departed + deliveredAfter steps nodeId + n.packets.entries.length := by
  refine replay_induction (I := fun steps r => ∀ nodeId n, r.nodes.lookup nodeId = some n →
      n.entered + createdAfter steps nodeId = n.departed + deliveredAfter steps nodeId + n.packets.entries.length)
    (fun nodeId n hn => ?_) (fun steps r nodes time update hnodes hr nodeId n hn => ?_)
    (fun steps step r r' hflight hr hkind nodeId n' hn' => ?_) h
  · rw [hnew nodeId n hn]
    rfl
  · obtain ⟨m, usage, hm, rfl⟩ := hnodes.origin hn
    exact hr nodeId m hm
  · obtain ⟨n, hn, hcases⟩ := (replayKind_visits hkind).origin hn'
    have hbalance := hr nodeId n hn
    rw [show (fun id => (r.inFlightPackets.lookup id).isSome) = inFlightAfter steps from funext hflight] at hcases
    rw [createdAfter_snoc, deliveredAfter_snoc]
    rcases hcases with ⟨hid, hvisit⟩ | ⟨hid, rfl⟩
    · have hstep := hvisit.balance
      simp only [hid, true_and]
      omega
    · simp only [hid, false_and, if_false]
      omega

/-- The packets that were sent are received, lost or in flight. -/
def FlightsBalanced (r : Replay) : Prop :=
  AList.sumOf (·.sentPackets.packets) r.nodes = AList.sumOf (·.receivedPackets.packets) r.nodes +
    (AList.sumOf (fun _ => 1) r.inFlightPackets + AList.sumOf LinkStats.lost r.statsByLink)

theorem lookup_flight_of_sent {step : SimulationStep} {s : PacketInTransit} (hone : OnePlace r.Holds)
    (hkind : step.kind = .packetInTransit s) (h : (v.replayStep r step).Within P r') :
    r.inFlightPackets.lookup s.packetId = none := by
  obtain ⟨nodes, update, hnodes, hsent⟩ := replayStep_within h
  rw [hkind] at hsent
  obtain ⟨m, p, n', metadata, l, l', usage, hm, hsent, -⟩ := packetInTransit_within_iff.1 hsent
  obtain ⟨-, -, hp, -⟩ := ReplayedNode.packetSent_within_iff.1 hsent
  have hbuffer : r.Holds s.packetId (.buffer s.nodeId) := by
    obtain ⟨n, usage, hn, rfl⟩ := hnodes.origin hm
    exact ⟨n, hn, by rw [hp]; rfl⟩
  refine Option.not_isSome_iff_eq_none.1 fun hflight => ?_
  exact absurd (hone s.packetId _ .flight hbuffer hflight) (by simp)

theorem FlightsBalanced.step {step : SimulationStep} (hr : FlightsBalanced r) (hone : OnePlace r.Holds)
    (h : (v.replayStep r step).Within P r') : FlightsBalanced r' := by
  have hnew : ∀ s, step.kind = .packetInTransit s → r.inFlightPackets.lookup s.packetId = none :=
    fun s hkind => lookup_flight_of_sent hone hkind h
  obtain ⟨nodes, update, hnodes, hkind⟩ := replayStep_within h
  have hflights := (replayKind_flights hkind).balance hnew
  have hvisits := replayKind_visits hkind
  have hsent := sumOf_visited hvisits (f := (·.sentPackets.packets)) (d := if step.kind.sends then 1 else 0)
    (fun hid => by cases hstep : step.kind <;> simp_all [SimulationStepKind.nodeId, SimulationStepKind.sends])
    (fun n n' hvisit => hvisit.sent)
  have hreceived := sumOf_visited hvisits (f := (·.receivedPackets.packets))
    (d := if step.kind.receives (fun id => (r.inFlightPackets.lookup id).isSome) then 1 else 0)
    (fun hid => by cases hstep : step.kind <;> simp_all [SimulationStepKind.nodeId, SimulationStepKind.receives])
    (fun n n' hvisit => hvisit.received)
  have hsent₀ := hnodes.sumOf_eq (f := (·.sentPackets.packets)) fun _ _ => rfl
  have hreceived₀ := hnodes.sumOf_eq (f := (·.receivedPackets.packets)) fun _ _ => rfl
  unfold FlightsBalanced at hr ⊢
  simp only at hsent hreceived hflights
  omega

theorem sumOf_start (hempty : ∀ id n, v.nodes.lookup id = some n → n = .new id) {f : ReplayedNode → Nat}
    (hf : ∀ id, f (.new id) = 0) : AList.sumOf f v.nodes = 0 := by
  refine List.sum_eq_zero fun x hx => ?_
  obtain ⟨e, he, rfl⟩ := List.mem_map.1 hx
  rw [hempty e.1 e.2 (AList.mem_lookup_iff.2 he), hf]

theorem flightsBalanced_replay (hempty : ∀ id n, v.nodes.lookup id = some n → n = .new id)
    (hnew : Along IntroducesNew steps) (h : (v.replay v.start steps).Within P r) : FlightsBalanced r := by
  have hnone : v.NoPackets := fun id n hn => by
    rw [hempty id n hn]
    rfl
  induction steps using List.reverseRecOn generalizing r with
  | nil =>
    obtain rfl := (Tracked.within_pure_iff (P := P)).1 h
    unfold FlightsBalanced start
    rw [sumOf_start hempty fun id => rfl, sumOf_start hempty fun id => rfl]
    rfl
  | append_singleton steps step ih =>
    obtain ⟨r₀, h₀, hstep⟩ := Tracked.within_fold_append.1 h
    obtain ⟨hsteps, -⟩ := along_snoc.1 hnew
    exact (ih hsteps h₀).step (onePlace_replay hnone h₀ hsteps) (Tracked.within_fold_singleton.1 hstep)

/-! ### Verified logs -/

theorem finish_within (h : (v.finish r).Within P r') : ∃ nodes, UsagesUpdated r.nodes nodes ∧ r' = { r with nodes } :=
  (v.finish_ensures r).result r' h.1

theorem sumOf_statsByNode (r : Replay) {f : ReplayedNode → Nat} {g : NodeStats → Nat} (hfg : ∀ n, g n.stats = f n) :
    AList.sumOf g (simulationStats r).statsByNode = AList.sumOf f r.nodes := by
  refine AList.sumOf_congr fun nodeId => ?_
  rw [lookup_statsByNode, Option.map_map]
  exact congrArg (fun h => Option.map h _) (funext hfg)

theorem lost_statsByLink (r : Replay) :
    AList.sumOf LinkStats.lost (simulationStats r).statsByLink = AList.sumOf LinkStats.lost r.statsByLink := by
  have hfold : ∀ (es : List ((_ : String) × ReplayedLink)) (stats : HashMap String LinkStats),
      AList.sumOf LinkStats.lost (es.foldl (fun stats e =>
        stats.insert e.1 { (stats.lookup e.1).getD {} with maxUsedBandwidthBps := e.2.maxBandwidthUsageBps }) stats) =
        AList.sumOf LinkStats.lost stats := by
    intro es
    induction es with
    | nil => exact fun stats => rfl
    | cons e es ih =>
      intro stats
      rw [List.foldl_cons, ih]
      exact Nat.add_right_cancel (AList.sumOf_insert_getD (f := LinkStats.lost) (d := {}) rfl e.1 _)
  exact hfold r.links.entries r.statsByLink

end SimulationVerifier

/-- What was sent is received, lost or in flight, and what came into a node left it or is still there. -/
structure Conserved (steps : List SimulationStep) (stats : SimulationStats) : Prop where
  flights : AList.sumOf (·.sent.packets) stats.statsByNode = AList.sumOf (·.received.packets) stats.statsByNode +
    AList.sumOf (·.droppedInTransit.packets) stats.statsByLink + Set.ncard {id | inFlightAfter steps id}
  nodes : ∀ nodeId n, stats.statsByNode.lookup nodeId = some n →
    (createdAfter steps nodeId + n.received.packets - n.droppedOnArrival.packets + n.duplicates.packets : ℤ) =
      n.sent.packets + deliveredAfter steps nodeId + n.droppedInjected.packets + n.droppedBufferFull.packets +
        n.droppedBufferCleared.packets + (residentsAfter steps nodeId).length

/-- If a log is verified and introduces every packet once, the statistics conserve the packets. -/
theorem conserved_of_verify {spec : NetworkSpec} {steps : List SimulationStep} {order : List String} {v : SimulationVerifier}
    {verified : VerifiedSimulation} (hnew : SimulationVerifier.new order steps spec = .ok v)
    (hv : v.verify = some (.ok verified)) (hintroduced : Along IntroducesNew v.steps) : Conserved v.steps verified.stats := by
  have htables := SimulationVerifier.new_tables hnew
  obtain ⟨r, hr, hstats⟩ := SimulationVerifier.within_of_verify hv
  obtain ⟨r₀, h₀, hfinish⟩ := Tracked.within_bind_iff.1 hr
  obtain ⟨nodes, hnodes, rfl⟩ := SimulationVerifier.finish_within hfinish
  have hhistory := SimulationVerifier.replay_history htables.new_node htables.new_link h₀
  rw [hstats]
  constructor
  case flights =>
    have hbalance := SimulationVerifier.flightsBalanced_replay htables.new_node hintroduced h₀
    have hsent := (SimulationVerifier.sumOf_statsByNode { r₀ with nodes } (f := (·.sentPackets.packets))
      (g := (·.sent.packets)) fun _ => rfl).trans (hnodes.sumOf_eq fun _ _ => rfl)
    have hreceived := (SimulationVerifier.sumOf_statsByNode { r₀ with nodes } (f := (·.receivedPackets.packets))
      (g := (·.received.packets)) fun _ => rfl).trans (hnodes.sumOf_eq fun _ _ => rfl)
    have hlost : AList.sumOf (·.droppedInTransit.packets) (SimulationVerifier.simulationStats { r₀ with nodes }).statsByLink =
        AList.sumOf LinkStats.lost r₀.statsByLink := SimulationVerifier.lost_statsByLink { r₀ with nodes }
    have hflying : Set.ncard {id | inFlightAfter v.steps id} = AList.sumOf (fun _ => 1) r₀.inFlightPackets := by
      rw [AList.sumOf_one, ← AList.ncard_keys]
      simp only [hhistory.flight]
    rw [hsent, hreceived, hflying, hlost, hbalance]
    omega
  case nodes =>
    intro nodeId stats hlookup
    rw [SimulationVerifier.lookup_statsByNode] at hlookup
    obtain ⟨n', hn', rfl⟩ := Option.map_eq_some_iff.1 hlookup
    obtain ⟨n, usage, hn, rfl⟩ := hnodes.origin hn'
    have hbalance := SimulationVerifier.node_balance htables.new_node h₀ nodeId n hn
    rw [(hhistory.nodes nodeId n hn).length_packets] at hbalance
    simp only [ReplayedNode.entered, ReplayedNode.departed, ReplayedNode.stats] at hbalance ⊢
    omega

/-- The packet that host `A` sends is one that host `B` receives. -/
theorem conserved_oneFlight : ∃ v verified, SimulationVerifier.new ["A", "B"] oneFlight (hostPair 8000000 0) = .ok v ∧
    v.verify = some (.ok verified) ∧ Conserved v.steps verified.stats := by
  obtain ⟨v, verified, hnew, hv, -, hsteps⟩ := exists_verified_oneFlight
  refine ⟨v, verified, hnew, hv, conserved_of_verify hnew hv ?_⟩
  have hsplit : oneFlight = [] ++ [createdAt "A" 1] ++ [{ relativeTime := 0, kind := .packetInTransit firstSend }] ++
      [{ relativeTime := Duration.fromMillis 5, kind := .packetInNode firstArrival }] := rfl
  rw [hsteps, hsplit, along_snoc, along_snoc, along_snoc]
  refine ⟨⟨⟨along_nil, ?_⟩, ?_⟩, ?_⟩
  · rintro id - ⟨pre, step, hpre, -⟩
    simp at hpre
  · intro id hid
    simp [introduces] at hid
  · -- the packet is in flight
    intro id hid
    have hnone : introduces ([] ++ [createdAt "A" 1] ++ [{ relativeTime := 0, kind := .packetInTransit firstSend }])
        { relativeTime := Duration.fromMillis 5, kind := .packetInNode firstArrival } = none := by decide
    rw [hnone] at hid
    simp at hid

end QuicWorkbench
