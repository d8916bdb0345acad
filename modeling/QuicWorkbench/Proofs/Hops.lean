import QuicWorkbench.Proofs.Arrivals
import QuicWorkbench.Proofs.Lifecycle
import QuicWorkbench.Proofs.Provenance
import QuicWorkbench.Tracing.SimulationStepper

/-!
# Where packets have been

The hops that the stepper reports for a packet are stops of a journey along links of the graph, which takes no less time
than their delays, and begins at a host, or where the packet was duplicated. A packet that waits at a host has its
arrival there in the log, so asking for it never fails.
-/

namespace QuicWorkbench

/-- The stop, as the stepper reports it. -/
def InMemoryNetwork.hopAt (net : InMemoryNetwork) (stop : Nat × NodeIx) : Nat × String := (stop.1, (net.node stop.2).id)

/-- The packet has made these stops: the first one is its host, or where it was duplicated, which is not a hop. -/
structure Journey (net : InMemoryNetwork) (id : Uuid) (steps : List SimulationStep) (stops : List (Nat × NodeIx)) : Prop where
  timetable : Timetable net.Linked stops
  hops : ((SimulationStepper.mk steps).getPacketHops id = stops.map net.hopAt ∧
      ∀ stop ∈ stops.head?, (net.node stop.2).udpEndpoint.isSome) ∨
    (SimulationStepper.mk steps).getPacketHops id = stops.tail.map net.hopAt ∧ ∃ stop ∈ stops.head?, ∃ step ∈ steps, ∃ e,
      step.kind = .packetDuplicated e ∧ e.packetId = id ∧ net.hopAt stop = (step.relativeTime, e.nodeId)

/-- What the stops say about the stage. -/
def Stage.Ends (net : InMemoryNetwork) (stops : List (Nat × NodeIx)) : Stage → Prop
  | .unborn => stops = []
  | .atNode i since _ _ => stops.getLast? = some (since, i)
  | .onLink j sent _ _ => ∃ t i, stops.getLast? = some (t, i) ∧ t ≤ sent ∧ j < net.links.length ∧
      (net.link j).source ∈ (net.node i).addresses
  | .over => True

namespace Journey
variable {net : InMemoryNetwork} {id : Uuid} {steps : List SimulationStep} {stops : List (Nat × NodeIx)} {step : SimulationStep}

theorem getPacketHops_snoc : (SimulationStepper.mk (steps ++ [step])).getPacketHops id =
    (SimulationStepper.mk steps).getPacketHops id ++ (step.hop id).toList := by
  rw [SimulationStepper.getPacketHops, SimulationStepper.getPacketHops, List.filterMap_append]
  cases h : step.hop id <;> simp [h]

theorem stay (h : Journey net id steps stops) (hstep : step.hop id = none) : Journey net id (steps ++ [step]) stops where
  timetable := h.timetable
  hops := by
    rw [getPacketHops_snoc, hstep, Option.toList_none, List.append_nil]
    rcases h.hops with hhost | ⟨hhops, stop, hstop, step', hmem, he⟩
    · exact .inl hhost
    · exact .inr ⟨hhops, stop, hstop, step', List.mem_append_left _ hmem, he⟩

theorem start {t : Nat} {i : NodeIx} (h : Journey net id steps []) (hhost : (net.node i).udpEndpoint.isSome)
    (hstep : step.hop id = some (net.hopAt (t, i))) : Journey net id (steps ++ [step]) [(t, i)] where
  timetable := List.isChain_singleton _
  hops := by
    refine .inl ⟨?_, ?_⟩
    · rcases h.hops with ⟨hhops, -⟩ | ⟨-, stop, hstop, -⟩
      · rw [getPacketHops_snoc, hhops, hstep]
        rfl
      · simp at hstop
    · intro stop hstop
      obtain rfl : (t, i) = stop := Option.some.inj hstop
      exact hhost

theorem duplicate {t : Nat} {i : NodeIx} {e : GenericPacketEvent} (h : Journey net id steps []) (hid : e.packetId = id)
    (hplace : net.hopAt (t, i) = (step.relativeTime, e.nodeId)) (hstep : step.kind = .packetDuplicated e) :
    Journey net id (steps ++ [step]) [(t, i)] where
  timetable := List.isChain_singleton _
  hops := by
    refine .inr ⟨?_, (t, i), rfl, step, List.mem_append_right _ (List.mem_singleton_self _), e, hstep, hid, hplace⟩
    have hnone : step.hop id = none := by rw [SimulationStep.hop, hstep]
    rcases h.hops with ⟨hhops, -⟩ | ⟨-, stop, hstop, -⟩
    · rw [getPacketHops_snoc, hhops, hnone]
      rfl
    · simp at hstop

theorem travel {t t' : Nat} {i i' : NodeIx} (h : Journey net id steps stops) (hlast : stops.getLast? = some (t, i))
    (hconnects : Connects net.Linked (t, i) (t', i')) (hstep : step.hop id = some (net.hopAt (t', i'))) :
    Journey net id (steps ++ [step]) (stops ++ [(t', i')]) where
  timetable := by
    refine List.isChain_append.2 ⟨h.timetable, List.isChain_singleton _, fun x hx y hy => ?_⟩
    obtain rfl : (t, i) = x := Option.some.inj (hlast.symm.trans hx)
    obtain rfl : (t', i') = y := Option.some.inj hy
    exact hconnects
  hops := by
    have hne : stops ≠ [] := by
      rintro rfl
      simp at hlast
    rw [getPacketHops_snoc, hstep, Option.toList_some]
    rcases h.hops with ⟨hhops, hhead⟩ | ⟨hhops, stop, hstop, step', hmem, he⟩
    · refine .inl ⟨by rw [hhops, List.map_append]; rfl, fun stop hstop => hhead stop ?_⟩
      rwa [List.head?_append_of_ne_nil _ hne] at hstop
    · refine .inr ⟨?_, stop, by rwa [List.head?_append_of_ne_nil _ hne], step', List.mem_append_left _ hmem, he⟩
      rw [hhops, List.tail_append_of_ne_nil hne, List.map_append]
      rfl

end Journey

/-- Along a life, the hops are the stops of a journey that ends where the packet is. -/
theorem Lived.journey {net : InMemoryNetwork} {id : Uuid} {steps : List SimulationStep} {l : Stage} (h : Lived net id steps l) :
    ∃ stops, Journey net id steps stops ∧ l.Ends net stops := by
  have hhop : ∀ step : SimulationStep, (∀ s, step.kind = .packetInNode s → s.packetId ≠ id) → step.hop id = none := by
    intro step hstep
    rw [SimulationStep.hop]
    split
    · rename_i s hkind
      rw [if_neg (hstep s hkind)]
    · rfl
  induction h with
  | nil => exact ⟨[], ⟨List.isChain_nil, .inl ⟨rfl, by simp⟩⟩, rfl⟩
  | other step h hstep ih =>
    obtain ⟨stops, hjourney, hends⟩ := ih
    refine ⟨stops, hjourney.stay (hhop step fun s hkind hid => hstep ?_), hends⟩
    rw [hkind, ← hid]
    rfl
  | @next steps l l' step h hstep ih =>
    obtain ⟨stops, hjourney, hends⟩ := ih
    obtain ⟨t, kind⟩ := step
    have hin : ∀ (i : NodeIx) (number size : Nat) (dropped : Bool), kind = .packetInNode ⟨id, number, size, (net.node i).id, dropped⟩ →
        SimulationStep.hop id ⟨t, kind⟩ = some (net.hopAt (t, i)) := fun i number size dropped hkind => by
      simp [SimulationStep.hop, hkind, InMemoryNetwork.hopAt]
    have hout : (∀ s, kind ≠ .packetInNode s) → SimulationStep.hop id ⟨t, kind⟩ = none := fun hkind =>
      hhop _ fun s hs => absurd hs (hkind s)
    cases hstep with
    | created i number size hhost =>
      obtain rfl : stops = [] := hends
      exact ⟨_, hjourney.start hhost (hin i _ _ _ rfl), rfl⟩
    | droppedOnCreation i number size hhost =>
      obtain rfl : stops = [] := hends
      exact ⟨_, hjourney.start hhost (hin i _ _ _ rfl), trivial⟩
    | duplicated i number size hi =>
      obtain rfl : stops = [] := hends
      exact ⟨[(t, i)], hjourney.duplicate rfl rfl rfl, rfl⟩
    | sent i j since number size hsince hj hsource =>
      exact ⟨stops, hjourney.stay (hout (by simp)), since, i, hends, hsince, hj, hsource⟩
    | arrived i j sent number size htarget harrived =>
      obtain ⟨t₀, i₀, hlast, hle, hj, hsource⟩ := hends
      have hconnects : Connects net.Linked (t₀, i₀) (t, i) :=
        ⟨(net.link j).delay, ⟨j, hj, rfl, hsource, htarget⟩, (Nat.add_le_add_right hle _).trans harrived⟩
      exact ⟨_, hjourney.travel hlast hconnects (hin i _ _ _ rfl), by simp [Stage.Ends]⟩
    | droppedOnArrival i j sent number size htarget harrived =>
      obtain ⟨t₀, i₀, hlast, hle, hj, hsource⟩ := hends
      have hconnects : Connects net.Linked (t₀, i₀) (t, i) :=
        ⟨(net.link j).delay, ⟨j, hj, rfl, hsource, htarget⟩, (Nat.add_le_add_right hle _).trans harrived⟩
      exact ⟨_, hjourney.travel hlast hconnects (hin i _ _ _ rfl), trivial⟩
    | lost | dropped | delivered => exact ⟨stops, hjourney.stay (hout (by simp)), trivial⟩

/-- The packet has this number. -/
def Stage.Numbered (n : Nat) : Stage → Prop
  | .atNode _ _ number _ | .onLink _ _ number _ => number = n
  | .unborn | .over => True

theorem Lived.numbered {net : InMemoryNetwork} {id : Uuid} {steps : List SimulationStep} {l : Stage} (h : Lived net id steps l) :
    (l = .unborn → ∀ step ∈ steps, ∀ p, step.kind = .packetInNode p → p.packetId ≠ id) ∧
    ∃ n, l.Numbered n ∧ ∀ step ∈ steps, ∀ p, step.kind = .packetInNode p → p.packetId = id → p.packetNumber = n := by
  induction h with
  | nil => exact ⟨by simp, 0, trivial, by simp⟩
  | @other steps l step h hstep ih =>
    have hnot : ∀ p, step.kind = .packetInNode p → p.packetId ≠ id := fun p hp hid => hstep (by rw [hp, ← hid]; rfl)
    refine ⟨fun hl step' hstep' p hp => ?_, ?_⟩
    · rcases List.mem_append.1 hstep' with hold | hnew
      · exact ih.1 hl step' hold p hp
      · obtain rfl := List.mem_singleton.1 hnew
        exact hnot p hp
    · obtain ⟨n, hn, hall⟩ := ih.2
      refine ⟨n, hn, fun step' hstep' p hp hid => ?_⟩
      rcases List.mem_append.1 hstep' with hold | hnew
      · exact hall step' hold p hp hid
      · obtain rfl := List.mem_singleton.1 hnew
        exact absurd hid (hnot p hp)
  | @next steps l l' step h hstep ih =>
    obtain ⟨t, kind⟩ := step
    obtain ⟨hunborn, n, hn, hall⟩ := ih
    -- the number that the step says, if it says one
    have hgo : ∀ m, l'.Numbered m → (l = .unborn ∨ m = n) → (∀ p, kind = .packetInNode p → p.packetNumber = m) → l' ≠ .unborn →
        (l' = .unborn → ∀ step ∈ steps ++ [⟨t, kind⟩], ∀ p, step.kind = .packetInNode p → p.packetId ≠ id) ∧
        ∃ n, l'.Numbered n ∧ ∀ step ∈ steps ++ [⟨t, kind⟩], ∀ p, step.kind = .packetInNode p → p.packetId = id →
          p.packetNumber = n := by
      intro m hm hor hkind hne
      refine ⟨fun heq => absurd heq hne, m, hm, fun step' hstep' p hp hid => ?_⟩
      rcases List.mem_append.1 hstep' with hold | hnew
      · rcases hor with rfl | rfl
        · exact absurd hid (hunborn rfl step' hold p hp)
        · exact hall step' hold p hp hid
      · obtain rfl := List.mem_singleton.1 hnew
        exact hkind p hp
    cases hstep with
    | created i number size hhost => exact hgo number rfl (.inl rfl) (fun p hp => by cases hp; rfl) (by simp)
    | droppedOnCreation i number size hhost => exact hgo number trivial (.inl rfl) (fun p hp => by cases hp; rfl) (by simp)
    | duplicated i number size hi => exact hgo number rfl (.inl rfl) (by simp) (by simp)
    | sent i j since number size => exact hgo number rfl (.inr hn) (by simp) (by simp)
    | arrived i j sent number size => exact hgo number rfl (.inr hn) (fun p hp => by cases hp; rfl) (by simp)
    | droppedOnArrival i j sent number size => exact hgo number trivial (.inr hn) (fun p hp => by cases hp; rfl) (by simp)
    | lost j sent number size => exact hgo number trivial (.inr hn) (by simp) (by simp)
    | dropped i since number size => exact hgo number trivial (.inr hn) (by simp) (by simp)
    | delivered i since number size => exact hgo number trivial (.inr hn) (by simp) (by simp)

/-! ### Asking for an arrival -/

/-- Where the log has an arrival of the packet at the node, the first one is found. -/
theorem SimulationStepper.exists_getPacketArrivedAt {steps : List SimulationStep} {step : SimulationStep} {p : PacketInNode}
    (hstep : step ∈ steps) (hkind : step.kind = .packetInNode p) :
    ∃ step' ∈ steps, ∃ p', step'.kind = .packetInNode p' ∧ p'.packetId = p.packetId ∧ p'.nodeId = p.nodeId ∧
      (SimulationStepper.mk steps).getPacketArrivedAt p.packetId p.nodeId = some step'.relativeTime := by
  have hmem : step.relativeTime ∈ steps.filterMap (·.arrivedAt p.packetId p.nodeId) :=
    List.mem_filterMap.2 ⟨step, hstep, by simp [SimulationStep.arrivedAt, hkind]⟩
  obtain ⟨t, ht⟩ : ∃ t, (steps.filterMap (·.arrivedAt p.packetId p.nodeId)).head? = some t := by
    cases hlist : steps.filterMap (·.arrivedAt p.packetId p.nodeId) with
    | nil => simp [hlist] at hmem
    | cons t rest => exact ⟨t, rfl⟩
  obtain ⟨step', hstep', harrived⟩ := List.mem_filterMap.1 (List.mem_of_head? ht)
  unfold SimulationStep.arrivedAt at harrived
  split at harrived
  · rename_i p' hkind'
    split_ifs at harrived with hids
    exact ⟨step', hstep', p', hkind', hids.1, hids.2, ht.trans harrived.symm⟩
  · simp at harrived

/-- The arrival that is found for a packet which came to the host is one of the packet, and it had `N` then. -/
theorem Arrived.getPacketArrivedAt {net : InMemoryNetwork} {N : Nat → NodeIx → InTransitData → Prop} {s : State} {i : NodeIx}
    {e : PrioritizedInTransitData} (h : Arrived net s i e) (hcustody : InCustody net N ⟨[], s⟩) (hlives : Lives net ⟨[], s⟩) :
    ∃ i' d' t, (SimulationStepper.mk s.log).getPacketArrivedAt e.data.id (net.node i).id = some (t - net.simulationStart) ∧
      (net.node i').id = (net.node i).id ∧ d'.id = e.data.id ∧ d'.number = e.data.number ∧ N t i' d' ∧ t ≤ s.now := by
  obtain ⟨step', hstep', p', hkind', hid', hnode', harrived⟩ := SimulationStepper.exists_getPacketArrivedAt h.logged rfl
  obtain ⟨i', d', t, heq, hN, hle, htime⟩ := hcustody.logged step' hstep' p' hkind'
  obtain ⟨l, hl⟩ := hlives.lived e.data.id
  obtain ⟨-, n, -, hall⟩ := hl.numbered
  have hn := hall _ h.logged _ rfl rfl
  have hn' := hall step' hstep' p' hkind' hid'
  refine ⟨i', d', t, htime ▸ harrived, ?_, ?_, ?_, hN, hle⟩
  · rw [heq] at hnode'
    exact hnode'
  · rw [heq] at hid'
    exact hid'
  · rw [heq, ← hn] at hn'
    exact hn'

/-- What the log and the packets say about the sends of the applications. -/
structure Traced (net : InMemoryNetwork) (sends : List Sending) (s : State) : Prop where
  provenance : ProvenanceInv net sends s
  life : LifeInv net ⟨[], s⟩
  announced : Announced net s

/-- A run leads here, with these sends. -/
def Ran (net : InMemoryNetwork) (s₀ : State) (sends : List Sending) (s : State) : Prop :=
  ∃ as, net.machine.run s₀ as = some s ∧ sendings net s₀ as = sends

namespace Ran
variable {net : InMemoryNetwork} {s₀ s s' : State} {sends sends' : List Sending}

theorem refl : Ran net s [] s := ⟨[], rfl, rfl⟩

theorem trans (h : Ran net s₀ sends s) (h' : Ran net s sends' s') : Ran net s₀ (sends ++ sends') s' := by
  obtain ⟨as, hrun, rfl⟩ := h
  obtain ⟨as', hrun', rfl⟩ := h'
  exact ⟨as ++ as', Machine.run_append_eq_some.2 ⟨s, hrun, hrun'⟩, sendings_append hrun as'⟩

theorem single {a : Action} (hstep : net.step s a = some s') : Ran net s (a.sending s).toList s' := by
  refine ⟨[a], Machine.run_cons_eq_some.2 ⟨s', hstep, rfl⟩, ?_⟩
  rw [sendings, hstep]
  exact List.append_nil _

end Ran

/-- The packet has come to the host, whose address is its destination, from one of the sends. -/
structure CameTo (net : InMemoryNetwork) (sends : List Sending) (s : State) (i : NodeIx) (e : PrioritizedInTransitData) : Prop where
  arrived : Arrived net s i e
  sentAs : SentAs net sends s.now i e.data
  here : (net.node i).udpEndpoint.any (·.addr = e.data.transmit.destination)

theorem CameTo.mono {net : InMemoryNetwork} {sends sends' : List Sending} {s s' : State} {i : NodeIx}
    {e : PrioritizedInTransitData} (h : CameTo net sends s i e) (hlog : s.log ⊆ s'.log) (hnow : s.now ≤ s'.now) :
    CameTo net (sends ++ sends') s' i e :=
  ⟨h.arrived.mono hlog hnow, (SentAs.custody net _).wait _ _ _ _ (h.sentAs.append sends') hnow, h.here⟩

namespace Traced
variable {net : InMemoryNetwork} {spec : NetworkSpec} {sends : List Sending} {s s' : State} {a : Action} {i : NodeIx}

theorem step (h : Traced net sends s) (htables : net.Tables spec) (hstep : net.step s a = some s') :
    Traced net (sends ++ (a.sending s).toList) s' :=
  ⟨h.provenance.step htables h.life.stays hstep, (LifeInv.preserved htables).step hstep h.life, h.announced.step hstep⟩

theorem of_run {networkEvents : NetworkEvents} {s₀ : State} {simulationStart start now : Nat} {disableTimeWarping : Bool}
    {as : List Action}
    (hinit : InMemoryNetwork.initializeNetwork spec networkEvents simulationStart start now disableTimeWarping = .ok (net, s₀))
    (hnow : simulationStart ≤ now) (hrun : net.machine.run s₀ as = some s) : Traced net (sendings net s₀ as) s := by
  have htables := InMemoryNetwork.buildNetwork_tables (InMemoryNetwork.initializeNetwork_ok hinit).1
  have hstart := (InMemoryNetwork.buildNetwork_start (InMemoryNetwork.initializeNetwork_ok hinit).1).1
  refine ⟨.of_run hinit hrun, ?_, (Announced.initialized hinit).run hrun⟩
  exact (LifeInv.preserved htables).run hrun ((LifeInv.preserved htables).initialized hinit (.initial net _ _ (hstart ▸ hnow)))

theorem initialized {networkEvents : NetworkEvents} {simulationStart start now : Nat} {disableTimeWarping : Bool}
    (hinit : InMemoryNetwork.initializeNetwork spec networkEvents simulationStart start now disableTimeWarping = .ok (net, s))
    (hnow : simulationStart ≤ now) : Traced net [] s :=
  have hrun : net.machine.run s [] = some s := rfl
  of_run hinit hnow hrun

theorem cameTo (h : Traced net sends s) {e : PrioritizedInTransitData} (he : e ∈ (s.nodes i).inbound.queue) :
    CameTo net sends s i e := by
  obtain ⟨hsent, hhere⟩ := h.provenance.2.places false (.inbound i) e.data (.inbound he)
  exact ⟨h.announced i e he, hsent, hhere⟩

/-- With distinct ids, the log has an answer to when a packet came to its host, and that is no sooner than the links allow
since the packet was sent. -/
theorem arrivedAt (h : Traced net sends s) (htables : net.Tables spec) (hids : (spec.nodes.map NetworkNodeSpec.id).Nodup)
    (hgen : s.generated.Nodup) {e : PrioritizedInTransitData} (he : CameTo net sends s i e) :
    ∃ t x D, (SimulationStepper.mk s.log).getPacketArrivedAt e.data.id (net.node i).id = some t ∧
      sends[e.data.number]? = some x ∧ x.Describes net e.data ∧ Travels net.Linked x.node D i ∧
      x.time + D ≤ net.simulationStart + t := by
  obtain ⟨i', d', t, harrived, hid, -, hnumber, ⟨x', D, hx', hdesc', htravels, ht⟩, -⟩ :=
    he.arrived.getPacketArrivedAt h.provenance.2 (h.life.lives hgen).2
  obtain ⟨x, -, hx, hdesc, -⟩ := he.sentAs
  obtain rfl : x = x' := by
    rw [hnumber, hx] at hx'
    exact Option.some.inj hx'
  have hi : i < net.nodes.length := net.lt_length_of_isSome (Option.isSome_of_any he.here)
  have hi' : i' < net.nodes.length := htables.lt_length_of_travels htravels (net.lt_length_of_isSome (by rw [hdesc.endpoint]; rfl))
  obtain rfl : i' = i := htables.idUnique hids _ i' i hi' hi hid rfl
  refine ⟨_, x, D, harrived, hx, hdesc, htravels, ?_⟩
  omega

end Traced

/-! ### Results -/

section
variable {spec : NetworkSpec} {events : List NetworkEvent} {net : InMemoryNetwork} {s : State} {disableTimeWarping : Bool}

/-- With distinct packet ids, the log tells the life of every packet. -/
theorem lives_of_reaches (hreach : Reaches disableTimeWarping spec events net s) (hgen : s.generated.Nodup) :
    Lives net ⟨[], s⟩ :=
  hreach.lives hgen

/-- The packet of `A` waits at `B`. -/
theorem lives_hostPair : ∃ net s, Reaches false (hostPair 8000000 0) [] net s ∧ (s.nodes 1).inbound.queue.length = 1 ∧
    Lives net ⟨[], s⟩ := by
  obtain ⟨net, s, hreach, hs⟩ := exists_reaches_of_simulate (hostPair 8000000 0) [] HostPair.sendToB
    (fun _ s => decide ((s.nodes 1).inbound.queue.length = 1 ∧ s.generated.Nodup)) (by decide +kernel)
  obtain ⟨hqueue, hgen⟩ := of_decide_eq_true hs
  exact ⟨net, s, hreach, hqueue, lives_of_reaches hreach hgen⟩

/-- With distinct packet ids, the hops of every packet are the stops of a journey along links of the graph; that of a packet
which waits in a buffer or at a host has come to the node. -/
theorem journeys_of_reaches (hreach : Reaches disableTimeWarping spec events net s) (hgen : s.generated.Nodup) :
    (∀ id, ∃ stops, Journey net id s.log stops) ∧
    ∀ p d i, Scene.At ⟨[], s⟩ false p d → (p = .inbound i ∨ ∃ k, p = .stay k i) →
      ∃ stops t, Journey net d.id s.log stops ∧ stops.getLast? = some (t, i) ∧ t ≤ s.now - net.simulationStart := by
  have hlives := hreach.lives hgen
  refine ⟨fun id => ?_, fun p d i hd hp => ?_⟩
  · obtain ⟨l, hl⟩ := hlives.lived id
    obtain ⟨stops, hjourney, -⟩ := hl.journey
    exact ⟨stops, hjourney⟩
  · obtain ⟨l, hl, hfits⟩ := hlives.fits _ _ _ hd
    obtain ⟨stops, hjourney, hends⟩ := hl.journey
    obtain ⟨since, hsince, rfl⟩ : ∃ since ≤ s.now - net.simulationStart, l = .atNode i since d.number d.packetSize := by
      rcases hp with rfl | ⟨k, rfl⟩
      · exact hfits.2
      · exact hfits
    exact ⟨stops, since, hjourney, hends, hsince⟩

theorem journeys_hostPair : ∃ net s, Reaches false (hostPair 8000000 0) [] net s ∧
    (SimulationStepper.mk s.log).getPacketHops 1 = [(0, "A"), (Duration.fromMillis 5, "B")] ∧
    ∃ stops, Journey net 1 s.log stops := by
  obtain ⟨net, s, hreach, hs⟩ := exists_reaches_of_simulate (hostPair 8000000 0) [] HostPair.sendToB
    (fun _ s => decide ((SimulationStepper.mk s.log).getPacketHops 1 = [(0, "A"), (Duration.fromMillis 5, "B")] ∧
      s.generated.Nodup)) (by decide +kernel)
  obtain ⟨hhops, hgen⟩ := of_decide_eq_true hs
  exact ⟨net, s, hreach, hhops, (journeys_of_reaches hreach hgen).1 1⟩

end

/-- With distinct ids, asking when a packet that waits at a host came there gives an answer, and that is no sooner than the
links allow since the packet was sent. -/
theorem arrivedAt_of_run {net : InMemoryNetwork} {spec : NetworkSpec} {networkEvents : NetworkEvents} {s₀ s : State}
    {simulationStart start now : Nat} {disableTimeWarping : Bool} {as : List Action}
    (hinit : InMemoryNetwork.initializeNetwork spec networkEvents simulationStart start now disableTimeWarping = .ok (net, s₀))
    (hnow : simulationStart ≤ now) (hids : (spec.nodes.map NetworkNodeSpec.id).Nodup) (hrun : net.machine.run s₀ as = some s)
    (hgen : s.generated.Nodup) {i : NodeIx} {e : PrioritizedInTransitData} (he : e ∈ (s.nodes i).inbound.queue) :
    ∃ t x D, (SimulationStepper.mk s.log).getPacketArrivedAt e.data.id (net.node i).id = some t ∧
      (sendings net s₀ as)[e.data.number]? = some x ∧ x.Describes net e.data ∧ Travels net.Linked x.node D i ∧
      x.time + D ≤ simulationStart + t := by
  have hbuild := (InMemoryNetwork.initializeNetwork_ok hinit).1
  have htraced := Traced.of_run hinit hnow hrun
  rw [← (InMemoryNetwork.buildNetwork_start hbuild).1]
  exact htraced.arrivedAt (InMemoryNetwork.buildNetwork_tables hbuild) hids hgen (htraced.cameTo he)

theorem arrivedAt_hostPair : ∃ net s₀ s t x D, InMemoryNetwork.initializeNetwork (hostPair 8000000 0)
    (.new [] (hostPair 8000000 0).nodes (hostPair 8000000 0).links) 0 0 0 false = .ok (net, s₀) ∧
    net.machine.run s₀ HostPair.sendToB = some s ∧ ∃ e ∈ (s.nodes 1).inbound.queue,
    (SimulationStepper.mk s.log).getPacketArrivedAt e.data.id (net.node 1).id = some t ∧
      (sendings net s₀ HostPair.sendToB)[e.data.number]? = some x ∧ x.Describes net e.data ∧
      Travels net.Linked x.node D 1 ∧ x.time + D ≤ 0 + t := by
  obtain ⟨net, s₀, s, hinit, -, hrun, hs⟩ := exists_of_simulateGuarded (hostPair 8000000 0) [] HostPair.sendToB
    (fun _ _ _ => True) (fun _ s => decide ((s.nodes 1).inbound.queue.length = 1 ∧ s.generated.Nodup)) (by decide +kernel)
  obtain ⟨hqueue, hgen⟩ := of_decide_eq_true hs
  obtain ⟨e, hqueue⟩ := List.length_eq_one_iff.1 hqueue
  have he : e ∈ (s.nodes 1).inbound.queue := hqueue ▸ List.mem_singleton_self e
  obtain ⟨t, x, D, h⟩ := arrivedAt_of_run hinit (Nat.le_refl _) (by decide) hrun hgen he
  exact ⟨net, s₀, s, t, x, D, hinit, hrun, e, he, h⟩

end QuicWorkbench
