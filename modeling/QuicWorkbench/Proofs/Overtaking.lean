import QuicWorkbench.Proofs.Queues
import QuicWorkbench.Proofs.Reordering
import QuicWorkbench.Proofs.Routes

/-!
# Who overtakes whom

In a network of queues no packet overtakes another one of its flow, from one host to one address, unless the flow goes
round in circles. Packets of different flows overtake each other as the delays of their routes want it: the numbers do
not tell flows apart.
-/

namespace QuicWorkbench

/-- The flow of the packet that the action sends. -/
def Action.flow (net : InMemoryNetwork) : Action → Option Flow
  | .trySend i transmit _ _ => some { sourceId := (net.node i).id, destination := transmit.destination }
  | _ => none

/-- The flows of the packets that are sent, by number. -/
def sentFlows (net : InMemoryNetwork) (as : List Action) : List Flow := as.filterMap (·.flow net)

/-! ### The numbers of packets -/

theorem Effect.nextTransmitNumber {net : InMemoryNetwork} {σ σ' : Scene} (he : Effect net σ σ') :
    σ'.state.nextTransmitNumber = σ.state.nextTransmitNumber ∨
      ∃ i d, (.created i, d) ∈ σ'.held ∧ d.number = σ.state.nextTransmitNumber := by
  cases he with
  | create h s i endpoint transmit uuid => exact .inr ⟨i, _, List.mem_cons_self .., rfl⟩
  | offer h s i packet outbound links rolls =>
    rw [State.pushCopies_eq]
    exact .inl rfl
  | panicOffer h s i packet outbound links done rest j rolls =>
    rw [State.pushCopies_eq]
    exact .inl rfl
  | advance => exact .inl rfl
  | abandon => exact .inl rfl
  | dropOnArrival => exact .inl rfl
  | enter => exact .inl rfl
  | loseInTransit => exact .inl rfl
  | sendInbound => exact .inl rfl
  | dropRandomly => exact .inl rfl
  | duplicate => exact .inl rfl
  | introduce => exact .inl rfl
  | dropBecauseBufferFull => exact .inl rfl
  | accept => exact .inl rfl
  | acceptInVain => exact .inl rfl
  | takeInTransit => exact .inl rfl
  | panicForwarder => exact .inl rfl
  | takeInbound => exact .inl rfl
  | read => exact .inl rfl
  | endNodeTask => exact .inl rfl

theorem KeepingEffects.nextTransmitNumber {net : InMemoryNetwork} {σ σ' : Scene} (h : KeepingEffects net σ σ')
    (hheld : ∀ i d, (.created i, d) ∈ σ.held → d.number < σ.state.nextTransmitNumber) :
    σ'.state.nextTransmitNumber = σ.state.nextTransmitNumber := by
  have hboth : σ'.state.nextTransmitNumber = σ.state.nextTransmitNumber ∧
      ∀ i d, (.created i, d) ∈ σ'.held → (.created i, d) ∈ σ.held := by
    induction h with
    | refl => exact ⟨rfl, fun _ _ hmem => hmem⟩
    | tail _ hkeeps ih =>
      obtain ⟨heq, hsub⟩ := ih
      refine ⟨?_, fun i d hmem => hsub i d (hkeeps.uncreated i d hmem)⟩
      rcases hkeeps.effect.nextTransmitNumber with hsame | ⟨i, d, hmem, hnumber⟩
      · exact hsame.trans heq
      · have hlt := hheld i d (hsub i d (hkeeps.uncreated i d hmem))
        omega
  exact hboth.1

theorem LinkEffect.nextTransmitNumber {net : InMemoryNetwork} {s s' : State} {j : LinkIx} (he : LinkEffect net j s s') :
    s'.nextTransmitNumber = s.nextTransmitNumber := by
  cases he with
  | park p s₁ task hp => obtain ⟨queue, rfl⟩ := hp.eq_dequeue; rfl
  | discard p p' s₁ hp => obtain ⟨queue, rfl⟩ := hp.eq_dequeue; rfl
  | clear p p' s₁ hp => obtain ⟨queue, rfl⟩ := hp.eq_dequeue; rfl
  | send p p' s₁ data slot hp => obtain ⟨queue, rfl⟩ := hp.eq_dequeue; rfl
  | panicSend p p' s₁ hp => obtain ⟨queue, rfl⟩ := hp.eq_dequeue; rfl

namespace State

theorem processLinkEvent_nextTransmitNumber (net : InMemoryNetwork) (s : State) (event : LinkEventPayload) :
    (s.processLinkEvent net event).nextTransmitNumber = s.nextTransmitNumber := by
  rcases processLinkEvent_cases net s event with heq | ⟨j, s₁, -, hchange, heq⟩
  · rw [heq]
  · rw [heq]
    generalize event.status = status at hchange
    cases hchange <;> rfl

theorem processNodeEvent_nextTransmitNumber (net : InMemoryNetwork) (s : State) (event : NodeEventPayload) :
    (s.processNodeEvent net event).nextTransmitNumber = s.nextTransmitNumber := by
  rcases processNodeEvent_cases net s event with heq | ⟨i, s₁, -, hchange, heq⟩
  · rw [heq]
  · rw [heq]
    generalize event.status = status at hchange
    cases hchange <;> split_ifs <;> rfl

end State

theorem InMemoryNetwork.nextTransmitNumber_step {net : InMemoryNetwork} {s s' : State} {a : Action} (h : net.step s a = some s') :
    s'.nextTransmitNumber = s.nextTransmitNumber + (a.flow net).toList.length := by
  cases a with
  | advance duration =>
    obtain rfl := Option.some.inj h
    rfl
  | networkEvent =>
    rw [step] at h
    split at h
    · simp at h
    · rename_i event events hevents
      split_ifs at h
      obtain rfl := Option.some.inj h
      unfold State.processEvent
      cases event.kind with
      | link payload => exact State.processLinkEvent_nextTransmitNumber net _ payload
      | node payload => exact State.processNodeEvent_nextTransmitNumber net _ payload
  | trySend i transmit uuid draws =>
    obtain ⟨endpoint, -, heffects⟩ := State.trySend_effects h
    refine heffects.nextTransmitNumber fun i' d hmem => ?_
    obtain ⟨-, rfl⟩ : Place.created i' = .created i ∧ d = s.inTransitData net i endpoint transmit uuid := by simpa using hmem
    exact Nat.lt_succ_self _
  | pollRecv i metaLen =>
    obtain ⟨rest, heffects, -⟩ := State.pollRecv_effects h
    exact heffects.nextTransmitNumber (by simp)
  | nodeTask i rolls =>
    rw [step] at h
    split_ifs at h
    exact (State.processBufferForNode_effects h).nextTransmitNumber (by simp)
  | linkTask j slot =>
    rw [step] at h
    split_ifs at h
    exact (State.processLinkQueue_effect h).nextTransmitNumber
  | forwarder j draws =>
    rw [step] at h
    split_ifs at h
    exact (State.forwardPacketsFromLinkToNode_effects h).nextTransmitNumber (by simp)

/-! ### The invariant -/

/-- The packet has the number of a packet that was sent, and is of its flow. -/
def Sent (flows : List Flow) (x : Flow × Nat) : Prop := flows[x.2]? = some x.1

theorem Sent.mem {flows : List Flow} {x : Flow × Nat} (h : Sent flows x) : x.1 ∈ flows := List.mem_of_getElem? h

theorem Sent.lt_length {flows : List Flow} {x : Flow × Nat} (h : Sent flows x) : x.2 < flows.length := by
  rw [Sent, List.getElem?_eq_some_iff] at h
  exact h.1

theorem Sent.append {flows : List Flow} {x : Flow × Nat} (h : Sent flows x) (flows' : List Flow) : Sent (flows ++ flows') x := by
  rw [Sent, List.getElem?_append_left h.lt_length]
  exact h

/-- The state stands for queues in order, and the log has what came to each node. -/
def QueuesInv (net : InMemoryNetwork) (flows : List Flow) (s : State) : Prop :=
  flows.length = s.nextTransmitNumber ∧
    ∃ p, Pipes.Orderly net.routes (Sent flows) p ∧ Carries net (fun _ => []) s p ∧ Logged net s p

namespace QueuesInv
variable {net : InMemoryNetwork} {s s' : State} {flows : List Flow} {a : Action} {p : Pipes NodeIx LinkIx Flow Nat}

theorem getsTo (hlen : flows.length = s.nextTransmitNumber) (hp : ∀ i, ∀ x ∈ p.arrived i, Sent flows x)
    (h : Carries net (fun _ => []) s p) (hlogged : Logged net s p)
    (htables : ∀ a i, net.nodesByAddr.lookup a = some i → i < net.nodes.length) (hids : net.IdsFound) (hone : net.OneCandidate)
    (hextra : ∀ j < net.links.length, (net.link j).extraDelay = 0) (hpacer : PacerInv net s) (hdelays : DelayInv net s)
    (hstep : net.step s a = some s') : GetsTo net (Sent (flows ++ (a.flow net).toList)) p s' := by
  cases a with
  | advance duration =>
    obtain rfl := Option.some.inj hstep
    exact ⟨p, .refl, h.frame (fun _ => rfl) (fun _ => rfl) (fun _ => rfl) fun _ => rfl, hlogged⟩
  | networkEvent =>
    rw [InMemoryNetwork.step] at hstep
    split at hstep
    · simp at hstep
    · rename_i event events hevents
      split_ifs at hstep
      obtain rfl := Option.some.inj hstep
      have hevents : Carries net (fun _ => []) { s with events } p :=
        h.frame (fun _ => rfl) (fun _ => rfl) (fun _ => rfl) fun _ => rfl
      have hs := Stretches.processEvent net { s with events } event
      exact ⟨p, .refl, hevents.processEvent event, Logged.quiet (s := { s with events }) hlogged hs (fun _ => rfl) rfl⟩
  | trySend i transmit uuid draws =>
    refine h.trySend hlogged hids ?_ (fun i x hx => hlen ▸ (hp i x hx).lt_length) hstep
    simp [Sent, Action.flow, ← hlen]
  | pollRecv i metaLen =>
    exact ⟨p, .refl, h.pollRecv hstep, hlogged.quiet (Stretches.pollRecv hstep) (fun _ => rfl) rfl⟩
  | nodeTask i rolls =>
    rw [InMemoryNetwork.step] at hstep
    split_ifs at hstep with hi
    obtain ⟨p', hsteps, harrived, h'⟩ := h.processBufferForNode hone hi hstep
    exact ⟨p', hsteps, h', hlogged.quiet (Stretches.processBufferForNode hstep) (fun _ => rfl) harrived⟩
  | linkTask j slot =>
    rw [InMemoryNetwork.step] at hstep
    split_ifs at hstep with hj
    have he := State.processLinkQueue_effect hstep
    obtain ⟨p', hsteps, harrived, h'⟩ := h.linkEffect he hdelays (hextra j hj)
    exact ⟨p', hsteps, h', hlogged.frame he.numbersAt harrived⟩
  | forwarder j draws =>
    rw [InMemoryNetwork.step] at hstep
    split_ifs at hstep with hj
    exact h.forwarder hlogged htables hids (hpacer.sorted j) hstep

theorem step (h : QueuesInv net flows s) (htables : ∀ a i, net.nodesByAddr.lookup a = some i → i < net.nodes.length)
    (hids : net.IdsFound) (hone : net.OneCandidate) (hextra : ∀ j < net.links.length, (net.link j).extraDelay = 0)
    (hroutes : ∀ f ∈ flows ++ (a.flow net).toList, net.routes.NoCircle f) (hpacer : PacerInv net s) (hdelays : DelayInv net s)
    (hstep : net.step s a = some s') : QueuesInv net (flows ++ (a.flow net).toList) s' := by
  obtain ⟨hlen, p, horderly, hcarries, hlogged⟩ := h
  obtain ⟨p', hsteps, hcarries', hlogged'⟩ :=
    getsTo hlen horderly.created hcarries hlogged htables hids hone hextra hpacer hdelays hstep
  refine ⟨?_, p', ?_, hcarries', hlogged'⟩
  · rw [List.length_append, hlen, InMemoryNetwork.nextTransmitNumber_step hstep]
  · exact (horderly.mono fun x hx => hx.append _).steps (fun x hx => hroutes x.1 hx.mem) hsteps

/-- The induction is on the run, whose flows come behind those before it. -/
theorem run (htables : ∀ a i, net.nodesByAddr.lookup a = some i → i < net.nodes.length) (hids : net.IdsFound)
    (hone : net.OneCandidate) (hextra : ∀ j < net.links.length, (net.link j).extraDelay = 0) {as : List Action}
    (h : QueuesInv net flows s) (hroutes : ∀ f ∈ flows ++ sentFlows net as, net.routes.NoCircle f) (hpacer : PacerInv net s)
    (hdelays : DelayInv net s) (hrun : net.machine.run s as = some s') : QueuesInv net (flows ++ sentFlows net as) s' := by
  induction as generalizing s flows with
  | nil =>
    obtain rfl := Option.some.inj hrun
    rwa [sentFlows, List.filterMap_nil, List.append_nil]
  | cons a as ih =>
    obtain ⟨t, hstep, hrest⟩ := Machine.run_cons_eq_some.1 hrun
    have hstep : net.step s a = some t := hstep
    have hflows : flows ++ sentFlows net (a :: as) = flows ++ (a.flow net).toList ++ sentFlows net as := by
      rw [sentFlows, List.append_assoc, sentFlows]
      congr 1
      cases hflow : a.flow net with
      | none => rw [List.filterMap_cons_none hflow]; rfl
      | some f => rw [List.filterMap_cons_some hflow]; rfl
    rw [hflows] at hroutes ⊢
    have ht := h.step htables hids hone hextra (fun f hf => hroutes f (List.mem_append_left _ hf)) hpacer hdelays hstep
    exact ih ht hroutes ((PacerInv.preserved net).step hstep hpacer) ((DelayInv.preserved net).step hstep hdelays) hrest

theorem initialized {spec : NetworkSpec} {networkEvents : NetworkEvents} {s₀ : State} {simulationStart start now : Nat}
    {disableTimeWarping : Bool} (hinit : InMemoryNetwork.initializeNetwork spec networkEvents simulationStart start now
      disableTimeWarping = .ok (net, s₀)) : QueuesInv net [] s₀ := by
  refine InMemoryNetwork.initializeNetwork_induction (I := QueuesInv net []) hinit ?_ ?_ ?_
  · refine ⟨rfl, .empty, .empty net.routes _, ⟨fun i => rfl, fun i b hb => ?_, fun j => ⟨[], ?_, .nil, rfl⟩⟩, fun i hi => rfl⟩
    · simp [InMemoryNetwork.initialState, NodeState.new] at hb
    · exact List.nil_sublist _
  · rintro s payload - ⟨hlen, p, horderly, hcarries, hlogged⟩
    refine ⟨hlen.trans (s.processLinkEvent_nextTransmitNumber net payload).symm, p, horderly, ?_, ?_⟩
    · exact hcarries.processEvent ⟨0, .link payload⟩
    · exact hlogged.quiet (Stretches.processEvent net s ⟨0, .link payload⟩) (fun _ => rfl) rfl
  · rintro s payload - ⟨hlen, p, horderly, hcarries, hlogged⟩
    refine ⟨hlen.trans (s.processNodeEvent_nextTransmitNumber net payload).symm, p, horderly, ?_, ?_⟩
    · exact hcarries.processEvent ⟨0, .node payload⟩
    · exact hlogged.quiet (Stretches.processEvent net s ⟨0, .node payload⟩) (fun _ => rfl) rfl

end QueuesInv

/-! ### Results -/

/-- Packets of one flow come to the node in the order of their numbers. -/
theorem QueuesInv.numbers {net : InMemoryNetwork} {flows : List Flow} {s : State} (h : QueuesInv net flows s) {i : NodeIx}
    (hi : i < net.nodes.length) :
    (numbersAt (net.node i).id s.log).Pairwise fun m n => n < m → flows[m]? ≠ flows[n]? := by
  obtain ⟨-, p, horderly, -, hlogged⟩ := h
  rw [← hlogged i hi, List.pairwise_map, List.pairwise_iff_getElem]
  intro k l hk hl hkl hlt hsame
  have hx : flows[(p.arrived i)[k].2]? = some (p.arrived i)[k].1 := horderly.created i _ (List.getElem_mem hk)
  have hy : flows[(p.arrived i)[l].2]? = some (p.arrived i)[l].1 := horderly.created i _ (List.getElem_mem hl)
  rw [hx, hy, Option.some.injEq] at hsame
  have hle := List.pairwise_iff_getElem.1 (horderly.inOrder _ i) k l hk hl hkl rfl hsame.symm
  omega

theorem receptionsAfter_sublist (log : List SimulationStep) (nodeId : String) :
    ((receptionsAfter log nodeId).map Prod.fst).Sublist (numbersAt nodeId log) := by
  induction log using List.reverseRecOn with
  | nil => exact List.Sublist.refl _
  | append_singleton log step ih =>
    have hlast : ((receptionAt log step.kind nodeId).toList.map Prod.fst).Sublist (step.kind.numberAt nodeId).toList := by
      rw [receptionAt]
      split_ifs with hid
      · cases hkind : step.kind with
        | packetInNode s =>
          have hid : s.nodeId = nodeId := by simpa [hkind, SimulationStepKind.nodeId] using hid
          rw [SimulationStepKind.reception]
          split_ifs <;> simp [SimulationStepKind.numberAt, hid]
        | _ => exact List.nil_sublist _
      · exact List.nil_sublist _
    rw [receptionsAfter_snoc, List.map_append, numbersAt, List.filterMap_append]
    refine ih.append ?_
    cases hnumber : step.kind.numberAt nodeId with
    | none => simpa [hnumber] using hlast
    | some n => simpa [hnumber] using hlast

/-- The node's statistics count the packets that were received behind one with a higher number, whichever flow that one is
of; the two are never of the same flow. So as long as the node receives packets of one flow, none are counted. -/
structure CountsOvertaking (flows : List Flow) (received : List (Nat × Nat)) (stats : NodeStats) : Prop where
  counted : stats.receivedOutOfOrder = .ofSizes ((overtaken received).map Prod.snd)
  otherFlows : received.Pairwise fun x y => y.1 < x.1 → flows[x.1]? ≠ flows[y.1]?
  oneFlow : (∀ x ∈ received, ∀ y ∈ received, flows[x.1]? = flows[y.1]?) → stats.receivedOutOfOrder = {}

/-- In a network of queues, what a node's statistics count as out of order are packets of different flows. -/
theorem countsOvertaking_of_run {spec : NetworkSpec} {networkEvents : NetworkEvents} {net : InMemoryNetwork} {s₀ s : State}
    {simulationStart start now : Nat} {disableTimeWarping : Bool} (hinit : InMemoryNetwork.initializeNetwork spec
      networkEvents simulationStart start now disableTimeWarping = .ok (net, s₀))
    (hids : (spec.nodes.map NetworkNodeSpec.id).Nodup) (hextra : ∀ link ∈ spec.links, link.extraDelay = 0)
    (hone : net.OneCandidate) {as : List Action} (hrun : net.machine.run s₀ as = some s)
    (hroutes : ∀ f ∈ sentFlows net as, net.routes.NoCircle f) {order : List String} {v : SimulationVerifier}
    {verified : VerifiedSimulation} (hnew : SimulationVerifier.new order s.log spec = .ok v)
    (hverify : v.verify = some (.ok verified)) {i : NodeIx} (hi : i < net.nodes.length) :
    ∃ stats, verified.stats.statsByNode.lookup (net.node i).id = some stats ∧
      CountsOvertaking (sentFlows net as) (receptionsAfter s.log (net.node i).id) stats := by
  have htables := InMemoryNetwork.buildNetwork_tables (InMemoryNetwork.initializeNetwork_ok hinit).1
  have hinv : QueuesInv net (sentFlows net as) s := by
    refine (QueuesInv.initialized hinit).run (fun a i ha => (htables.nodesByAddr a i ha).1) (htables.nodesById_self hids) hone
      (fun j hj => hextra _ ?_) hroutes ((PacerInv.preserved net).initialized hinit (.initial net _ _))
      ((DelayInv.preserved net).initialized hinit (.initial net _ _)) hrun
    rw [← htables.links, InMemoryNetwork.link, List.getD_eq_getElem?_getD, List.getElem?_eq_getElem hj]
    exact List.getElem_mem hj
  have hsteps : v.steps = s.log := by
    rw [(SimulationVerifier.new_tables hnew).steps, (LogInv.of_run hinit hrun).insertionSort_eq]
  obtain ⟨n, hn, hof⟩ := htables.of_node hi
  obtain ⟨stats, hstats, hcounted⟩ := SimulationVerifier.receivedOutOfOrder_of_verify hnew hverify
    (List.mem_map.2 ⟨n, hn, hof.id.symm⟩)
  rw [hsteps] at hcounted
  have hother : (receptionsAfter s.log (net.node i).id).Pairwise fun x y => y.1 < x.1 →
      (sentFlows net as)[x.1]? ≠ (sentFlows net as)[y.1]? :=
    List.pairwise_map.1 ((hinv.numbers hi).sublist (receptionsAfter_sublist s.log _))
  refine ⟨stats, hstats, hcounted, hother, fun hsame => ?_⟩
  have hsorted : (receptionsAfter s.log (net.node i).id).Pairwise fun x y => x.1 ≤ y.1 :=
    hother.imp_of_mem fun hx hy hne => Nat.le_of_not_lt fun hlt => hne hlt (hsame _ hx _ hy)
  rw [hcounted, overtaken_eq_nil hsorted]
  rfl

/-- At most one link starts at each node. -/
def InMemoryNetwork.OneLink (net : InMemoryNetwork) : Prop :=
  net.links.Pairwise fun l l' => ∀ n ∈ net.nodes, l.source ∈ n.addresses → l'.source ∉ n.addresses

instance (net : InMemoryNetwork) : Decidable net.OneLink := by
  unfold InMemoryNetwork.OneLink
  infer_instance

theorem InMemoryNetwork.Tables.oneCandidate {spec : NetworkSpec} {net : InMemoryNetwork} (h : Tables spec net) (hone : net.OneLink) :
    net.OneCandidate := by
  intro i hi dest links hlinks j hj j' hj'
  have hnode : net.node i ∈ net.nodes := node_eq_getElem hi ▸ List.getElem_mem hi
  have hordered : ∀ j ∈ links, ∀ j' ∈ links, ¬ j < j' := by
    intro j hj j' hj' hlt
    obtain ⟨hlen, hsource⟩ := h.of_mem_candidateLinks hlinks hj
    obtain ⟨hlen', hsource'⟩ := h.of_mem_candidateLinks hlinks hj'
    rw [link, List.getD_eq_getElem?_getD, List.getElem?_eq_getElem hlen, Option.getD_some] at hsource
    rw [link, List.getD_eq_getElem?_getD, List.getElem?_eq_getElem hlen', Option.getD_some] at hsource'
    exact List.pairwise_iff_getElem.1 hone j j' hlen hlen' hlt _ hnode hsource hsource'
  exact Nat.le_antisymm (Nat.le_of_not_lt (hordered j' hj' j hj)) (Nat.le_of_not_lt (hordered j hj j' hj'))

/-- A run without extra delays and with at most one candidate link for each destination, in which packets of these flows are
sent; so many of them are reported as received out of order by the node. -/
def ReportsOutOfOrder (spec : NetworkSpec) (as : List Action) (order : List String) (flows : List Flow) (nodeId : String)
    (packets : Nat) : Prop :=
  ∃ net s₀ s v verified, InMemoryNetwork.initializeNetwork spec (.new [] spec.nodes spec.links) 0 0 0 false = .ok (net, s₀) ∧
    (∀ link ∈ spec.links, link.extraDelay = 0) ∧ net.OneCandidate ∧ net.machine.run s₀ as = some s ∧ sentFlows net as = flows ∧
    SimulationVerifier.new order s.log spec = .ok v ∧ v.verify = some (.ok verified) ∧
    (verified.stats.statsByNode.lookup nodeId).map (·.receivedOutOfOrder.packets) = some packets

theorem reportsOutOfOrder_of_simulate {spec : NetworkSpec} {as : List Action} {order : List String} {flows : List Flow}
    {nodeId : String} {packets : Nat} (hextra : ∀ link ∈ spec.links, link.extraDelay = 0)
    (h : simulateGuarded spec [] as (fun _ _ _ => True) fun net s => decide (net.OneLink ∧ sentFlows net as = flows) &&
      SimulationVerifier.verifies spec order s.log fun verified =>
        (verified.stats.statsByNode.lookup nodeId).map (·.receivedOutOfOrder.packets) = some packets) :
    ReportsOutOfOrder spec as order flows nodeId packets := by
  obtain ⟨net, s₀, s, hinit, -, hrun, hs⟩ := exists_of_simulateGuarded spec [] as (fun _ _ _ => True) _ h
  rw [Bool.and_eq_true, decide_eq_true_eq] at hs
  obtain ⟨⟨hone, hflows⟩, hverifies⟩ := hs
  obtain ⟨v, verified, hnew, hverify, hpackets⟩ := SimulationVerifier.exists_verified _ _ _ _ hverifies
  have htables := InMemoryNetwork.buildNetwork_tables (InMemoryNetwork.initializeNetwork_ok hinit).1
  exact ⟨net, s₀, s, v, verified, hinit, hextra, htables.oneCandidate hone, hrun, hflows, hnew, hverify, of_decide_eq_true hpackets⟩

/-! ### Two hosts, and a circle -/

namespace TwoSenders

def c : BitVec 32 := 0x0a000005

/-- `A` and then `C` send a packet to `B`, where that of `C` arrives first. -/
def sendBoth : List Action :=
  HostPair.sendFromA 1 ++ [.linkTask 0 0, .trySend 1 HostPair.transmit 2 (HostPair.draws 0), .nodeTask 1 HostPair.rolls,
    .linkTask 1 0, .advance (Duration.fromMillis 5), HostPair.forward 1, .advance (Duration.fromMillis 5), HostPair.forward 0]

/-- From the two hosts to `B`. -/
def flows : List Flow := ["A", "C"].map fun sourceId => { sourceId, destination := ⟨.v4 HostPair.b, hostPort⟩ }

end TwoSenders

/-- Hosts `A` and `C` have a link to `B` each, and that of `C` is faster. -/
def twoSenders : NetworkSpec :=
  { nodes := [HostPair.host "A" [HostPair.a₁] 1000, HostPair.host "C" [TwoSenders.c] 1000, HostPair.host "B" [HostPair.b] 1000]
    links := [{ HostPair.link "ab" HostPair.a₁ 8000000 0 with delay := Duration.fromMillis 10 },
      HostPair.link "cb" TwoSenders.c 8000000 0] }

namespace RoutingCircle

def transmit : OwnedTransmit := { HostPair.transmit with destination := ⟨.v4 TwoInterfaces.b, hostPort⟩ }

/-- `A` sends a second packet, which comes to `R1` before the first one comes back there. -/
def sendTwo : List Action :=
  [.trySend 0 transmit 1 (HostPair.draws 0), .nodeTask 0 HostPair.rolls, .linkTask 0 0, .advance (Duration.fromMillis 5),
    HostPair.forward 0, .nodeTask 2 HostPair.rolls, .linkTask 1 0, .advance (Duration.fromMillis 5), HostPair.forward 1,
    .nodeTask 3 HostPair.rolls, .linkTask 2 0, .trySend 0 transmit 2 (HostPair.draws 0), .nodeTask 0 HostPair.rolls,
    .linkTask 0 0, .advance (Duration.fromMillis 5), HostPair.forward 0, HostPair.forward 2]

end RoutingCircle

open TwoInterfaces in
/-- Routers `R1` and `R2` send to each other what host `A` sends to host `B`. -/
def routingCircle : NetworkSpec :=
  { nodes :=
      [ { HostPair.host "A" [] 1000 with interfaces := [interface a₁ r₁ 1] },
        HostPair.host "B" [b] 1000,
        { HostPair.host "R1" [] 1000 with kind := .router, interfaces := [interface r₁ r₂ 1] },
        { HostPair.host "R2" [] 1000 with kind := .router, interfaces := [interface r₂ r₁ 1] } ]
    links :=
      [ { HostPair.link "ar1" a₁ 8000000 0 with target := .v4 r₁ },
        { HostPair.link "r1r2" r₁ 8000000 0 with target := .v4 r₂ },
        { HostPair.link "r2r1" r₂ 8000000 0 with target := .v4 r₁ } ] }

/-- Packets of different flows are reported, and so are packets of one flow if it goes round in circles. -/
theorem out_of_order_reported :
    ReportsOutOfOrder twoSenders TwoSenders.sendBoth ["A", "C", "B"] TwoSenders.flows "B" 1 ∧
    ReportsOutOfOrder routingCircle RoutingCircle.sendTwo ["A", "B", "R1", "R2"]
      (List.replicate 2 { sourceId := "A", destination := RoutingCircle.transmit.destination }) "R1" 1 :=
  ⟨reportsOutOfOrder_of_simulate (by decide) (by decide +kernel), reportsOutOfOrder_of_simulate (by decide) (by decide +kernel)⟩

/-- The packet of `C` overtakes that of `A`, which is counted. -/
theorem countsOvertaking_twoSenders : ∃ net s₀ s v verified stats, InMemoryNetwork.initializeNetwork twoSenders
    (.new [] twoSenders.nodes twoSenders.links) 0 0 0 false = .ok (net, s₀) ∧
    net.machine.run s₀ TwoSenders.sendBoth = some s ∧ SimulationVerifier.new ["A", "C", "B"] s.log twoSenders = .ok v ∧
    v.verify = some (.ok verified) ∧ verified.stats.statsByNode.lookup "B" = some stats ∧
    receptionsAfter s.log "B" = [(1, 128), (0, 128)] ∧
    CountsOvertaking (sentFlows net TwoSenders.sendBoth) (receptionsAfter s.log "B") stats := by
  obtain ⟨net, s₀, s, hinit, -, hrun, hs⟩ := exists_of_simulateGuarded twoSenders [] TwoSenders.sendBoth (fun _ _ _ => True)
    (fun net s => decide (net.OneLink ∧ 2 < net.nodes.length ∧ (net.node 2).id = "B" ∧
      receptionsAfter s.log "B" = [(1, 128), (0, 128)] ∧
      ∀ f ∈ sentFlows net TwoSenders.sendBoth, net.routes.ends f 3 (net.routes.source f)) &&
      SimulationVerifier.verifies twoSenders ["A", "C", "B"] s.log fun _ => true)
    (by decide +kernel)
  rw [Bool.and_eq_true, decide_eq_true_eq] at hs
  obtain ⟨⟨hone, hi, hid, hreceived, hends⟩, hverifies⟩ := hs
  obtain ⟨v, verified, hnew, hverify, -⟩ := SimulationVerifier.exists_verified _ _ _ _ hverifies
  have htables := InMemoryNetwork.buildNetwork_tables (InMemoryNetwork.initializeNetwork_ok hinit).1
  obtain ⟨stats, hstats, hcounts⟩ := countsOvertaking_of_run hinit (by decide) (by decide) (htables.oneCandidate hone) hrun
    (fun f hf => Routes.noCircle_of_ends (hends f hf)) hnew hverify hi
  rw [hid] at hstats hcounts
  exact ⟨net, s₀, s, v, verified, stats, hinit, hrun, hnew, hverify, hstats, hreceived, hcounts⟩

end QuicWorkbench
