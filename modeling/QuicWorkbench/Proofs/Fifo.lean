import QuicWorkbench.Proofs.SendOrder
import QuicWorkbench.Proofs.Unroutable

/-!
# Links are first in, first out

A link sends one packet after the other, so with the same delay for all of them they arrive one after the other. The
forwarder of the link takes them out of a heap, in batches, whenever its timer has fired: as long as the timers fire
exactly at their deadlines, it forwards each packet at the instant at which it arrives, in the order of the sends.
-/

namespace QuicWorkbench

/-! ### Arrivals -/

/-- The step records that a packet got off its link. -/
def SimulationStepKind.isArrival : SimulationStepKind → Bool
  | .packetInNode _ | .packetLostInTransit _ => true
  | _ => false

def Action.forwards (j : LinkIx) : Action → Bool
  | .forwarder j' _ => j' = j
  | _ => false

/-- The arrivals that the step to `s'` records, if it is one of the forwarder of the link, and their instant. -/
def stepArrivals (j : LinkIx) (s : State) (a : Action) (s' : State) : List (Nat × SimulationStepKind) :=
  if a.forwards j then ((s'.log.drop s.log.length).filter (·.kind.isArrival)).map fun step => (s.now, step.kind) else []

/-- The arrivals that the forwarder of the link records in a run, with their instants. -/
def arrivalsOff (net : InMemoryNetwork) (j : LinkIx) : State → List Action → List (Nat × SimulationStepKind)
  | _, [] => []
  | s, a :: as =>
    match net.step s a with
    | none => []
    | some s' => stepArrivals j s a s' ++ arrivalsOff net j s' as

/-- The packet is lost in transit, or forwarded to the node at the end of the link. -/
def ArrivesAs (net : InMemoryNetwork) (j : LinkIx) (d : InTransitData) (kind : SimulationStepKind) : Prop :=
  kind = .packetLostInTransit { packetId := d.id, linkId := (net.link j).id } ∨
    ∃ i dropped, net.nodesByAddr.lookup (net.link j).target = some i ∧
      kind = .packetInNode (State.packetInNodeStep net i d dropped)

/-- The packet that was sent arrives, the delay of the link later. -/
def ArrivesInTime (net : InMemoryNetwork) (j : LinkIx) (sent : Nat × OutgoingPacket) (arrival : Nat × SimulationStepKind) :
    Prop :=
  arrival.1 = sent.1 + (net.link j).delay ∧ ArrivesAs net j sent.2.data arrival.2

/-- The forwarder of the link has nothing to do until the instant: its timer does not fire before, or it waits for the
next packet that is sent. -/
def State.forwarderRests (s : State) (j : LinkIx) (instant : Nat) : Bool :=
  match s.forwarders j with
  | .panicked => true
  | .awaiting delivery =>
    match delivery.sleep with
    | some deadline => instant ≤ deadline
    | none => j ∈ (s.links j).inTransit.notifyNewTransmits

/-- Timers fire exactly at their deadline: the clock does not advance beyond the deadline of a forwarder, nor past a
forwarder that was woken. -/
def TimersExact (net : InMemoryNetwork) (s : State) : Action → Prop
  | .advance duration => ∀ j < net.links.length, s.forwarderRests j (s.now + duration)
  | _ => True

instance (net : InMemoryNetwork) (s : State) (a : Action) : Decidable (TimersExact net s a) := by
  unfold TimersExact
  split <;> infer_instance

/-! ### What a stretch of a task records -/

/-- A stretch at one instant, without sends, that touches no packet in flight and no forwarder, and records these
arrivals. -/
structure Stretches (net : InMemoryNetwork) (s s' : State) (arrivals : List SimulationStepKind) : Prop where
  now : s'.now = s.now
  forwarders : s'.forwarders = s.forwarders
  inTransit : ∀ j, (s'.links j).inTransit = (s.links j).inTransit
  sentOn : ∀ j, s'.sentOn j = s.sentOn j
  log : ∃ kinds : List SimulationStepKind,
    s'.log = s.log ++ kinds.map (fun kind => ⟨s.now - net.simulationStart, kind⟩) ∧ kinds.filter (·.isArrival) = arrivals

namespace Stretches
variable {net : InMemoryNetwork} {s s' s'' : State} {ks ks' : List SimulationStepKind}

theorem trans (h : Stretches net s s' ks) (h' : Stretches net s' s'' ks') : Stretches net s s'' (ks ++ ks') where
  now := h'.now.trans h.now
  forwarders := h'.forwarders.trans h.forwarders
  inTransit j := (h'.inTransit j).trans (h.inTransit j)
  sentOn j := (h'.sentOn j).trans (h.sentOn j)
  log := by
    obtain ⟨kinds, heq, hks⟩ := h.log
    obtain ⟨kinds', heq', hks'⟩ := h'.log
    refine ⟨kinds ++ kinds', ?_, by rw [List.filter_append, hks, hks']⟩
    rw [heq', heq, h.now, List.map_append, List.append_assoc]

theorem quiet (hnow : s'.now = s.now) (hforwarders : s'.forwarders = s.forwarders)
    (hinTransit : ∀ j, (s'.links j).inTransit = (s.links j).inTransit) (hsentOn : ∀ j, s'.sentOn j = s.sentOn j)
    (hlog : s'.log = s.log) : Stretches net s s' [] :=
  ⟨hnow, hforwarders, hinTransit, hsentOn, [], by simpa using hlog, rfl⟩

theorem refl (net : InMemoryNetwork) (s : State) : Stretches net s s [] :=
  quiet rfl rfl (fun _ => rfl) (fun _ => rfl) rfl

theorem record (net : InMemoryNetwork) (s : State) {kind : SimulationStepKind} (hkind : kind.isArrival = false) :
    Stretches net s (s.record net kind) [] :=
  ⟨rfl, rfl, fun _ => rfl, fun _ => rfl, [kind], rfl, by simp [hkind]⟩

theorem arrival (net : InMemoryNetwork) (s : State) {kind : SimulationStepKind} (hkind : kind.isArrival) :
    Stretches net s (s.record net kind) [kind] :=
  ⟨rfl, rfl, fun _ => rfl, fun _ => rfl, [kind], rfl, by simp [hkind]⟩

theorem enqueueOutbound (net : InMemoryNetwork) (s : State) (i : NodeIx) (t : Nat) (d : InTransitData) :
    Stretches net s (State.settled (s.enqueueOutbound net i t d)) [] := by
  have haccept : ∀ buffer, Stretches net s (s.accept i buffer d) [] := fun buffer =>
    quiet rfl rfl (fun j => rfl) (State.sentOn_of_observes (.inr ⟨.accepted s.nextStay i d, rfl, rfl⟩)) rfl
  unfold State.enqueueOutbound
  cases (s.nodes i).outboundBuffer.reserve d.packetSize with
  | none => exact record net s rfl
  | some buffer =>
    dsimp only
    split
    · exact (haccept buffer).trans (quiet rfl rfl (fun j => rfl) (fun j => rfl) rfl)
    · exact haccept buffer

theorem forward (net : InMemoryNetwork) (s : State) (i : NodeIx) (d : InTransitData) (draws : Draws) :
    ∃ dropped, Stretches net s (State.settled (s.forward net i d draws))
      [.packetInNode (State.packetInNodeStep net i d dropped)] := by
  unfold State.forward
  by_cases hdown : (s.nodes i).isDown
  · rw [if_pos hdown]
    exact ⟨true, arrival net s rfl⟩
  rw [if_neg hdown]
  refine ⟨false, ?_⟩
  have hin : Stretches net s (s.trackPacketInNode net i d) [.packetInNode (State.packetInNodeStep net i d false)] :=
    arrival net s rfl
  dsimp only
  split_ifs
  · exact hin.trans (quiet rfl rfl (fun j => rfl) (fun j => rfl) rfl)
  · exact hin.trans (record net _ rfl)
  · have hid : Stretches net s ((s.trackPacketInNode net i d).newPacketId draws.uuid)
        [.packetInNode (State.packetInNodeStep net i d false)] :=
      hin.trans (quiet rfl rfl (fun j => rfl) (fun j => rfl) rfl)
    have hfirst := hid.trans (enqueueOutbound net _ i (s.trackPacketInNode net i d).now d)
    cases hresult : State.enqueueOutbound net ((s.trackPacketInNode net i d).newPacketId draws.uuid) i
        (s.trackPacketInNode net i d).now d with
    | error s' =>
      rw [hresult] at hfirst
      exact hfirst
    | ok s' =>
      rw [hresult] at hfirst
      simp only [Bind.bind, Except.bind, State.trackInjectedFailures_duplicate]
      exact (hfirst.trans (record net s' rfl)).trans (enqueueOutbound net _ i _ _)
  · exact hin.trans (enqueueOutbound net _ i _ d)

theorem forwardDelivered (net : InMemoryNetwork) (j : LinkIx) (delivered : List DeliveredTransmit) (draws : Nat → Draws)
    (s : State) : ∃ kinds, Stretches net s (State.settled (State.forwardDelivered net j delivered draws s)) kinds ∧
      List.Forall₂ (fun x kind => ArrivesAs net j x.data kind) (delivered.take kinds.length) kinds ∧
      ((State.forwardDelivered net j delivered draws s).isOk → kinds.length = delivered.length) := by
  induction delivered generalizing draws s with
  | nil => exact ⟨[], refl net s, by simp, fun _ => rfl⟩
  | cons x delivered ih =>
    rw [State.forwardDelivered]
    split_ifs with hdown
    · obtain ⟨kinds, hrest, hall, hok⟩ := ih (fun k => draws (k + 1)) (s.trackLostInTransit net j x.data)
      refine ⟨_ :: kinds, (arrival net s rfl).trans hrest, ?_, fun h => ?_⟩
      · exact .cons (.inl rfl) hall
      · rw [List.length_cons, List.length_cons, hok h]
    cases htarget : net.nodesByAddr.lookup (net.link j).target with
    | none => exact ⟨[], refl net s, by simp, by simp [Except.isOk, Except.toBool]⟩
    | some i =>
      obtain ⟨dropped, hfirst⟩ := forward net s i x.data (draws 0)
      have hx : ArrivesAs net j x.data (.packetInNode (State.packetInNodeStep net i x.data dropped)) :=
        .inr ⟨i, dropped, htarget, rfl⟩
      cases hresult : s.forward net i x.data (draws 0) with
      | error s' =>
        rw [hresult] at hfirst
        simp only [hresult, Bind.bind, Except.bind]
        exact ⟨_, hfirst, by simpa using hx, by simp [Except.isOk, Except.toBool]⟩
      | ok s' =>
        rw [hresult] at hfirst
        simp only [hresult, Bind.bind, Except.bind]
        obtain ⟨kinds, hrest, hall, hok⟩ := ih (fun k => draws (k + 1)) s'
        refine ⟨_ :: kinds, hfirst.trans hrest, .cons hx hall, fun h => ?_⟩
        rw [List.length_cons, List.length_cons, hok h]

theorem trySend {net : InMemoryNetwork} {s s' : State} {i : NodeIx} {transmit : OwnedTransmit} {uuid : Uuid} {draws : Draws}
    (h : s.trySend net i transmit uuid draws = some s') : ∃ kinds, Stretches net s s' kinds := by
  unfold State.trySend at h
  split at h
  · simp at h
  · rename_i endpoint hhost
    split_ifs at h
    obtain rfl := Option.some.inj h
    have hcreate : Stretches net s { s.newPacketId uuid with nextTransmitNumber := s.nextTransmitNumber + 1 } [] :=
      quiet rfl rfl (fun j => rfl) (fun j => rfl) rfl
    obtain ⟨dropped, hforward⟩ := forward net _ i (s.inTransitData net i endpoint transmit uuid) draws
    exact ⟨_, hcreate.trans hforward⟩

theorem pollRecv {net : InMemoryNetwork} {s s' : State} {i : NodeIx} {metaLen : Nat} (h : s.pollRecv net i metaLen = some s') :
    Stretches net s s' [] := by
  obtain ⟨q, delivery, read, rfl⟩ := State.exists_of_pollRecv h
  refine ⟨rfl, rfl, fun _ => rfl, fun _ => rfl,
    read.map (fun x => .packetDeliveredToApplication (State.genericPacketEvent net i x.data)), ?_, ?_⟩
  · rw [List.map_map]
    rfl
  · rw [List.filter_eq_nil_iff]
    intro kind hkind
    obtain ⟨x, -, rfl⟩ := List.mem_map.1 hkind
    exact Bool.false_ne_true

theorem processEvent (net : InMemoryNetwork) (s : State) (event : NetworkEvent) :
    Stretches net s (s.processEvent net event) [] := by
  have hframe : ∀ {s' : State} (kind : SimulationStepKind), State.EventFrame s s' → kind.isArrival = false →
      (s'.log = s.log ∨ s'.log = s.log ++ [⟨s.now - net.simulationStart, kind⟩]) → Stretches net s s' [] := by
    intro s' kind hf hkind hlog
    refine ⟨hf.now, hf.forwarders, hf.inTransit, State.sentOn_of_observes (.inl hf.history), ?_⟩
    rcases hlog with heq | heq
    · exact ⟨[], by simpa using heq, rfl⟩
    · exact ⟨[kind], heq, by simp [hkind]⟩
  unfold State.processEvent
  cases event.kind with
  | link payload =>
    refine hframe (.networkEvent ⟨some payload, none⟩) (s.processLinkEvent_frame net payload) rfl ?_
    cases s.linkEvent_logs net payload with
    | same heq => exact .inl heq
    | step kind hkind heq => exact .inr (hkind.1 ▸ heq)
  | node payload =>
    refine hframe (.networkEvent ⟨none, some payload⟩) (s.processNodeEvent_frame net payload) rfl ?_
    cases s.nodeEvent_logs net payload with
    | same heq => exact .inl heq
    | step kind hkind heq => exact .inr (hkind.1 ▸ heq)

theorem processBufferForNode {net : InMemoryNetwork} {s s' : State} {i : NodeIx} {rolls : Nat → Roll × Roll}
    (h : s.processBufferForNode net i rolls = some s') : Stretches net s s' [] := by
  have hend : ∀ (s₁ : State) (task : NodeTask), Stretches net s s₁ [] → Stretches net s (s₁.endNodeTask i task) [] :=
    fun s₁ task h₁ => h₁.trans (quiet rfl rfl (fun j => rfl) (fun j => rfl) rfl)
  have hpush : ∀ (packet : BufferedPacket) (outbound : List BufferedPacket) (links done : List LinkIx),
      Stretches net s (State.pushCopies net i packet links done rolls (s.takeOutbound i packet outbound links)) [] := by
    intro packet outbound links done
    obtain ⟨links', heq, hlinks⟩ :=
      State.pushCopies_spec net i packet links done rolls (s.takeOutbound i packet outbound links)
    rw [heq]
    refine quiet rfl rfl (fun j => ?_) (State.sentOn_of_observes (.inr ⟨.offered packet.stay links, rfl, rfl⟩)) rfl
    obtain ⟨new, hj, -⟩ := hlinks j
    show (links' j).inTransit = _
    rw [hj]
    rfl
  obtain ⟨packet, outbound, -, -, htakes⟩ := State.processBufferForNode_takes h
  cases htakes with
  | panic => exact hend s _ (refl net s)
  | unroutable => exact hend s _ (refl net s)
  | offer links => exact hpush packet outbound links links
  | panicOffer links done rest j => exact hend _ _ (hpush packet outbound links done)

theorem stepArrivals_eq (h : Stretches net s s' ks) {j : LinkIx} {a : Action} (ha : a.forwards j) :
    stepArrivals j s a s' = ks.map fun kind => (s.now, kind) := by
  obtain ⟨kinds, heq, hks⟩ := h.log
  rw [stepArrivals, if_pos ha, heq, List.drop_left, List.filter_map, List.map_map, ← hks]
  rfl

end Stretches

/-! ### The forwarder goes on -/

theorem LinkEffect.forwarders {net : InMemoryNetwork} {s s' : State} {j : LinkIx} (h : LinkEffect net j s s') :
    s'.forwarders = s.forwarders := by
  cases h with
  | park p s₁ task hp => obtain ⟨queue, rfl⟩ := hp.eq_dequeue; rfl
  | discard p p' s₁ hp => obtain ⟨queue, rfl⟩ := hp.eq_dequeue; rfl
  | clear p p' s₁ hp => obtain ⟨queue, rfl⟩ := hp.eq_dequeue; rfl
  | send p p' s₁ data slot hp => obtain ⟨queue, rfl⟩ := hp.eq_dequeue; rfl
  | panicSend p p' s₁ hp => obtain ⟨queue, rfl⟩ := hp.eq_dequeue; rfl

/-- The task of the node at the end of the link runs, and the forwarder of the link has not panicked. -/
structure Forwards (s : State) (j : LinkIx) (i : NodeIx) : Prop where
  target : s.nodeTasks i = .running
  goesOn : (s.forwarders j).hasPanicked = false

theorem State.forwards_of_forwardPacketsFromLinkToNode {net : InMemoryNetwork} {s s' : State} {j j' : LinkIx} {i : NodeIx}
    {draws : Nat → Draws} (htarget : net.nodesByAddr.lookup (net.link j).target = some i) (h : Forwards s j i)
    (hstep : s.forwardPacketsFromLinkToNode net j' draws = some s') : (s'.forwarders j).hasPanicked = false := by
  have htake : ∀ q delivery,
      (((s.setInTransit j' q).setForwarder j' (.awaiting delivery)).forwarders j).hasPanicked = false := by
    intro q delivery
    by_cases hj : j = j'
    · simp [setForwarder, hj, ForwarderTask.hasPanicked]
    · simpa [setForwarder, setInTransit, setLink, hj] using h.goesOn
  obtain ⟨q, ⟨delivery, rfl⟩ | ⟨delivered, result, hresult, hs'⟩⟩ := exists_of_forwardPacketsFromLinkToNode hstep
  · exact htake q delivery
  obtain ⟨kinds, hs, -⟩ := Stretches.forwardDelivered net j' delivered draws
    ((s.setInTransit j' q).setForwarder j' (.awaiting (.new usizeMax)))
  rw [hresult] at hs
  obtain rfl | ⟨s₁, rfl, rfl⟩ := hs'
  · rw [show s'.forwarders = _ from hs.forwarders]
    exact htake q _
  · by_cases hj : j = j'
    · subst hj
      have hrunning : ((s.setInTransit j q).setForwarder j (.awaiting (.new usizeMax))).nodeTasks i = .running := h.target
      obtain ⟨s₂, hok⟩ := exists_forwardDelivered htarget hrunning delivered draws
      rw [hresult] at hok
      cases hok
    · have hforwarders : s₁.forwarders = _ := hs.forwarders
      have hother : (s₁.setForwarder j' .panicked).forwarders j = s₁.forwarders j := by simp [setForwarder, hj]
      rw [hother, hforwarders]
      exact htake q _

theorem InMemoryNetwork.forwards_step {net : InMemoryNetwork} {s s' : State} {j : LinkIx} {i : NodeIx} {a : Action}
    (hroutes : ∀ n ∈ net.nodes, ∀ a ∈ n.addresses, (net.routesByAddr.lookup a).isSome)
    (htarget : net.nodesByAddr.lookup (net.link j).target = some i) (h : Forwards s j i) (hC : TakesRoutable i net s a)
    (hstep : net.step s a = some s') : Forwards s' j i := by
  refine ⟨running_step hroutes h.target hC hstep, ?_⟩
  have hkeep : s'.forwarders = s.forwarders → (s'.forwarders j).hasPanicked = false := fun heq => heq ▸ h.goesOn
  cases a with
  | advance duration =>
    obtain rfl := Option.some.inj hstep
    exact hkeep rfl
  | networkEvent =>
    rw [step] at hstep
    split at hstep
    · simp at hstep
    · rename_i event events hevents
      split_ifs at hstep
      obtain rfl := Option.some.inj hstep
      exact hkeep (Stretches.processEvent net { s with events } event).forwarders
  | trySend i' transmit uuid draws =>
    obtain ⟨kinds, hs⟩ := Stretches.trySend hstep
    exact hkeep hs.forwarders
  | pollRecv i' metaLen => exact hkeep (Stretches.pollRecv hstep).forwarders
  | nodeTask i' rolls =>
    rw [step] at hstep
    split_ifs at hstep
    exact hkeep (Stretches.processBufferForNode hstep).forwarders
  | linkTask j' slot =>
    rw [step] at hstep
    split_ifs at hstep
    exact hkeep (State.processLinkQueue_effect hstep).forwarders
  | forwarder j' draws =>
    rw [step] at hstep
    split_ifs at hstep
    exact State.forwards_of_forwardPacketsFromLinkToNode htarget h hstep

/-! ### The order on the link -/

/-- The batch taken out of a sorted list, in order and before the rest, is at the front of the list. -/
theorem eq_append_of_perm {α : Type} {f : α → Nat} {l batch rest : List α} (hsorted : l.Pairwise fun a b => f a < f b)
    (hperm : l.Perm (batch ++ rest)) (hbatch : batch.Pairwise fun a b => f a ≤ f b)
    (hearlier : ∀ a ∈ batch, ∀ b ∈ rest, f a ≤ f b) : ∃ tail, l = batch ++ tail ∧ rest.Perm tail := by
  induction batch generalizing l with
  | nil => exact ⟨l, rfl, hperm.symm⟩
  | cons b batch ih =>
    cases l with
    | nil => simp at hperm
    | cons a l =>
      obtain ⟨hfirst, hl⟩ := List.pairwise_cons.1 hsorted
      obtain ⟨hb, hbatch⟩ := List.pairwise_cons.1 hbatch
      obtain rfl : b = a := by
        by_contra hne
        have hmem : b ∈ l := (List.mem_cons.1 (hperm.symm.subset (List.mem_cons_self ..))).resolve_left hne
        have hlt := hfirst b hmem
        have hle : f b ≤ f a := by
          rcases List.mem_cons.1 (hperm.subset (List.mem_cons_self ..)) with heq | hmem
          · exact absurd heq.symm hne
          · rcases List.mem_append.1 hmem with hmem | hmem
            · exact hb a hmem
            · exact hearlier b (List.mem_cons_self ..) a hmem
        omega
      obtain ⟨tail, rfl, htail⟩ := ih hl ((List.perm_cons b).1 hperm) hbatch
        fun a ha => hearlier a (List.mem_cons_of_mem _ ha)
      exact ⟨tail, rfl, htail⟩

/-- Every packet takes some time, so a pacer never lets two packets through at the same instant. -/
theorem sorted_lt_of_paced {bandwidthBps : Nat} {sends : List LinkSend} (hpaced : Along (PacedSend bandwidthBps) sends)
    (hpos : ∀ x ∈ sends, 0 < x.sizeBytes) : sends.Pairwise fun x y => x.time < y.time := by
  have htakes : ∀ bits, 0 < bits → 0 < PacketPacer.sendDurationMs bits bandwidthBps := by
    intro bits hbits
    rw [PacketPacer.sendDurationMs]
    split_ifs
    · omega
    · decide
    · exact Nat.div_pos (by omega) (by omega)
  induction sends using List.reverseRecOn with
  | nil => exact .nil
  | append_singleton sends y ih =>
    obtain ⟨hpaced, hy⟩ := along_snoc.1 hpaced
    rw [List.pairwise_append]
    refine ⟨ih hpaced fun x hx => hpos x (List.mem_append_left _ hx), List.pairwise_singleton .., fun x hx y' hy' => ?_⟩
    rw [List.mem_singleton.1 hy']
    -- the last packet before took some time, and the others were sent before it
    cases sends using List.reverseRecOn with
    | nil => simp at hx
    | append_singleton sends z =>
      have hlast := canSend_snoc_iff.1 hy
      have htime := htakes z.bits (by
        have := hpos z (by simp)
        rw [LinkSend.bits]
        omega)
      rw [Duration.fromMillis] at hlast
      have hle : x.time ≤ z.time := by
        rcases List.mem_append.1 hx with hx | hx
        · obtain ⟨hpaced, hz⟩ := along_snoc.1 hpaced
          exact time_le_of_canSend hpaced hz x hx
        · rw [List.mem_singleton.1 hx]
      omega

theorem PacerInv.sorted {net : InMemoryNetwork} {s : State} (h : PacerInv net s) (j : LinkIx) :
    (s.sentOn j).Pairwise fun x y => x.1 < y.1 := by
  have hsorted := sorted_lt_of_paced (h j).2 fun x hx => by
    obtain ⟨y, -, rfl⟩ := List.mem_map.1 hx
    exact OwnedTransmit.packetSize_pos _
  rw [State.linkSends, List.pairwise_map] at hsorted
  exact hsorted

/-- Without an extra delay on the link, no copy in its queue has one. -/
def DelayInv (net : InMemoryNetwork) (s : State) : Prop :=
  ∀ j, (net.link j).extraDelay = 0 → ∀ c ∈ s.copies j, c.anomalies.extraDelay = 0

namespace DelayInv
variable {net : InMemoryNetwork} {s s' : State}

theorem frame (h : DelayInv net s) (hcopies : ∀ j, s'.copies j = s.copies j) : DelayInv net s' := by
  intro j hextra c hc
  exact h j hextra c (hcopies j ▸ hc)

theorem pushCopies (h : DelayInv net s) (i : NodeIx) (packet : BufferedPacket) (candidates links : List LinkIx)
    (rolls : Nat → Roll × Roll) : DelayInv net (State.pushCopies net i packet candidates links rolls s) := by
  obtain ⟨links', heq, hlinks⟩ := State.pushCopies_spec net i packet candidates links rolls s
  rw [heq]
  intro j hextra c hc
  obtain ⟨new, hj, -, hnew⟩ := hlinks j
  have hc : c ∈ s.copies j ∨ c ∈ new := by simpa [State.copies, hj, or_assoc] using hc
  rcases hc with hc | hc
  · exact h j hextra c hc
  · obtain ⟨r, rfl⟩ := hnew c hc
    simp [State.outgoing, State.generatePacketAnomalies, hextra]

theorem preserved (net : InMemoryNetwork) : Preserved net fun σ => DelayInv net σ.state where
  effect σ σ' he h := by
    rcases he.quiet_or_stay with hq | hs
    · exact h.frame fun j => by rw [State.copies, State.copies, hq.linkTasks, hq.outgoingQueue]
    · generalize σ.state = s at h hs
      generalize σ'.state = s' at hs
      cases hs with
      | accept i d buffer => exact h.frame fun j => rfl
      | acceptInVain i d buffer => exact h.frame fun j => rfl
      | offer i packet outbound links rolls =>
        exact DelayInv.pushCopies (s := s.takeOutbound i packet outbound links) (h.frame fun j => rfl) i packet links links rolls
      | panicOffer i packet outbound links done rest j rolls =>
        have hpushed := DelayInv.pushCopies (s := s.takeOutbound i packet outbound links) (h.frame fun j => rfl) i packet links
          done rolls
        exact hpushed.frame fun j => rfl
      | endNodeTask i task => exact h.frame fun j => rfl
  link j s s' hj he h := by
    intro j' hextra c hc
    have hsub := he.copies_sublist (fun c => c.anomalies.extraDelay) (fun _ _ => rfl) j'
    obtain ⟨c', hc', heq⟩ := List.mem_map.1 (hsub.subset (List.mem_map_of_mem hc))
    exact heq ▸ h j' hextra c' hc'
  linkEvent s event h := h.frame fun j => by
    rw [State.copies, State.copies, (s.processLinkEvent_frame net event).linkTasks, (s.processLinkEvent_frame net event).outgoingQueue]
  nodeEvent s event h := h.frame fun j => by
    rw [State.copies, State.copies, (s.processNodeEvent_frame net event).linkTasks, (s.processNodeEvent_frame net event).outgoingQueue]
  events _ _ h := h

theorem initial (net : InMemoryNetwork) (now : Nat) (events : List NetworkEvent) :
    DelayInv net (net.initialState now events) := by
  intro j _ c hc
  simp [State.copies, InMemoryNetwork.initialState, NetworkLink.new, LinkTask.packet?] at hc

end DelayInv

/-! ### Packets in flight -/

/-- The packet that was sent, as the link's heap has it. -/
def inTransitOf (net : InMemoryNetwork) (j : LinkIx) (x : Nat × OutgoingPacket) : PrioritizedInTransitData :=
  { data := x.2.data, sent := x.1, delay := (net.link j).delay }

/-- The packets in flight on the link are these, in the order of the sends; none is overdue, and the forwarder that awaits
the delivery will get up in time for the first of them. -/
structure InFlight (net : InMemoryNetwork) (s : State) (j : LinkIx) (pending : List (Nat × OutgoingPacket))
    (delivery : NextPacketDelivery) : Prop where
  queue : (s.links j).inTransit.queue.Perm (pending.map (inTransitOf net j))
  due : ∀ x ∈ pending, s.now ≤ x.1 + (net.link j).delay
  limit : 0 < delivery.maxTransmits
  timer : ∀ deadline, delivery.sleep = some deadline → ∃ x rest, pending = x :: rest ∧ deadline = x.1 + (net.link j).delay
  registered : j ∈ (s.links j).inTransit.notifyNewTransmits → pending = []

namespace InFlight
open NextPacketDelivery
variable {net : InMemoryNetwork} {s : State} {j : LinkIx} {pending : List (Nat × OutgoingPacket)} {delivery : NextPacketDelivery}

theorem frame {s' : State} (h : InFlight net s j pending delivery) (hnow : s'.now = s.now)
    (hinTransit : (s'.links j).inTransit = (s.links j).inTransit) : InFlight net s' j pending delivery :=
  { queue := hinTransit ▸ h.queue
    due := hnow ▸ h.due
    limit := h.limit
    timer := h.timer
    registered := hinTransit ▸ h.registered }

theorem taken {q : InboundQueue} (hqueue : q.queue.Perm (pending.map (inTransitOf net j)))
    (hdue : ∀ x ∈ pending, s.now ≤ x.1 + (net.link j).delay) (hlimit : 0 < delivery.maxTransmits)
    (htimer : ∀ deadline, delivery.sleep = some deadline →
      ∃ x rest, pending = x :: rest ∧ deadline = x.1 + (net.link j).delay)
    (hregistered : j ∈ q.notifyNewTransmits → pending = []) :
    InFlight net ((s.setInTransit j q).setForwarder j (.awaiting delivery)) j pending delivery := by
  have hlink : (((s.setInTransit j q).setForwarder j (.awaiting delivery)).links j).inTransit = q := by
    simp [State.setForwarder, State.setInTransit, State.setLink]
  exact { queue := by rwa [hlink]
          due := hdue
          limit := hlimit
          timer := htimer
          registered := by rwa [hlink] }

/-- The first packet to arrive is the first that was sent. -/
theorem earliest (h : InFlight net s j pending delivery) (hsorted : pending.Pairwise fun x y => x.1 < y.1)
    {p : PrioritizedInTransitData} (hp : p ∈ (s.links j).inTransit.queue) (hmin : Earliest p (s.links j).inTransit.queue) :
    ∃ x rest, pending = x :: rest ∧ p.arrivalTime = x.1 + (net.link j).delay := by
  obtain ⟨y, hy, rfl⟩ := List.mem_map.1 (h.queue.subset hp)
  cases pending with
  | nil => simp at hy
  | cons x rest =>
    refine ⟨x, rest, rfl, ?_⟩
    have hle := hmin.arrivalTime_le (h.queue.symm.subset (List.mem_cons_self ..))
    have hge : x.1 ≤ y.1 := by
      rcases List.mem_cons.1 hy with rfl | hy
      · exact Nat.le_refl _
      · exact Nat.le_of_lt ((List.pairwise_cons.1 hsorted).1 y hy)
    simp only [PrioritizedInTransitData.arrivalTime, inTransitOf] at hle ⊢
    omega

/-- What is taken out of a link's heap, in order and before the rest, are the first packets that were sent. -/
theorem exists_done {batch rest queue : List PrioritizedInTransitData} (hsorted : pending.Pairwise fun x y => x.1 < y.1)
    (hpending : queue.Perm (pending.map (inTransitOf net j))) (hperm : queue.Perm (batch ++ rest))
    (hbatch : batch.Pairwise fun p r => (PrioritizedInTransitData.cmp r p).isLE) (hearlier : ∀ p ∈ batch, Earliest p rest) :
    ∃ done tail, pending = done ++ tail ∧ batch = done.map (inTransitOf net j) ∧ rest.Perm (tail.map (inTransitOf net j)) := by
  have hheap : (pending.map (inTransitOf net j)).Pairwise fun p r => p.arrivalTime < r.arrivalTime :=
    List.pairwise_map.2 (hsorted.imp fun hlt => Nat.add_lt_add_right hlt _)
  obtain ⟨tail, heq, htail⟩ := eq_append_of_perm hheap (hpending.symm.trans hperm)
    (hbatch.imp PrioritizedInTransitData.arrivalTime_le_of_isLE) fun p hp r hr => (hearlier p hp).arrivalTime_le hr
  obtain ⟨done, rest, rfl, rfl, rfl⟩ := List.map_eq_append_iff.1 heq
  exact ⟨done, rest, rfl, rfl, htail⟩

/-- A batch consists of the first packets in flight, which arrive at this very instant. -/
theorem batch (h : InFlight net s j pending delivery) (hsorted : pending.Pairwise fun x y => x.1 < y.1) {limit : Nat}
    {batch rest : List PrioritizedInTransitData} (hdue : Due s.now limit (s.links j).inTransit.queue batch rest) :
    ∃ done tail, pending = done ++ tail ∧ batch = done.map (inTransitOf net j) ∧ rest.Perm (tail.map (inTransitOf net j)) ∧
      ∀ x ∈ done, s.now = x.1 + (net.link j).delay := by
  obtain ⟨done, tail, rfl, rfl, htail⟩ := exists_done hsorted h.queue hdue.perm hdue.sorted hdue.earlier
  refine ⟨done, tail, rfl, rfl, htail, fun x hx => ?_⟩
  have hle : x.1 + (net.link j).delay ≤ s.now := hdue.due _ (List.mem_map_of_mem hx)
  have hge := h.due x (List.mem_append_left _ hx)
  omega

end InFlight

/-- The packets sent on the link have arrived in order, or are in flight if the forwarder has not panicked. -/
def FifoInv (net : InMemoryNetwork) (j : LinkIx) (arrivals : List (Nat × SimulationStepKind)) (s : State) : Prop :=
  ∃ arrived pending, s.sentOn j = arrived ++ pending ∧ List.Forall₂ (ArrivesInTime net j) arrived arrivals ∧
    ∀ delivery, s.forwarders j = .awaiting delivery → InFlight net s j pending delivery

namespace FifoInv
variable {net : InMemoryNetwork} {j : LinkIx} {s s' : State} {arrivals : List (Nat × SimulationStepKind)}
  {ks : List SimulationStepKind}

theorem frame (h : FifoInv net j arrivals s) (hnow : s'.now = s.now) (hforwarder : s'.forwarders j = s.forwarders j)
    (hinTransit : (s'.links j).inTransit = (s.links j).inTransit) (hsentOn : s'.sentOn j = s.sentOn j) :
    FifoInv net j arrivals s' := by
  obtain ⟨arrived, pending, hsent, harrived, hflight⟩ := h
  refine ⟨arrived, pending, hsentOn.trans hsent, harrived, fun delivery hdelivery => ?_⟩
  exact (hflight delivery (hforwarder ▸ hdelivery)).frame hnow hinTransit

theorem stretch (h : FifoInv net j arrivals s) (hs : Stretches net s s' ks) : FifoInv net j arrivals s' :=
  h.frame hs.now (congrFun hs.forwarders j) (hs.inTransit j) (hs.sentOn j)

/-- The clock does not get past the arrival of a packet in flight. -/
theorem advance (h : FifoInv net j arrivals s) {duration : Nat} (hrests : s.forwarderRests j (s.now + duration))
    (hsorted : (s.sentOn j).Pairwise fun x y => x.1 < y.1) : FifoInv net j arrivals { s with now := s.now + duration } := by
  obtain ⟨arrived, pending, hsent, harrived, hflight⟩ := h
  refine ⟨arrived, pending, hsent, harrived, fun delivery hdelivery => ?_⟩
  have hf := hflight delivery hdelivery
  refine { hf with due := fun x hx => ?_ }
  rw [State.forwarderRests, show s.forwarders j = .awaiting delivery from hdelivery] at hrests
  cases hsleep : delivery.sleep with
  | none =>
    have hnone := hf.registered (by simpa [hsleep] using hrests)
    simp [hnone] at hx
  | some deadline =>
    obtain ⟨first, rest, rfl, hdeadline⟩ := hf.timer deadline hsleep
    have hle : s.now + duration ≤ deadline := by simpa [hsleep] using hrests
    have hfirst : first.1 ≤ x.1 := by
      rcases List.mem_cons.1 hx with rfl | hx
      · exact Nat.le_refl _
      · rw [hsent, List.pairwise_append] at hsorted
        exact Nat.le_of_lt ((List.pairwise_cons.1 hsorted.2.1).1 x hx)
    show s.now + duration ≤ _
    omega

theorem linkEffect (h : FifoInv net j arrivals s) {j' : LinkIx} (he : LinkEffect net j' s s') (hdelays : DelayInv net s)
    (hextra : (net.link j).extraDelay = 0) : FifoInv net j arrivals s' := by
  rcases he.sends with ⟨p, slot, hsend⟩ | ⟨hobserves, -, hinTransit⟩
  · have hsentOn := State.sentOn_snoc hsend.history j
    by_cases hj : j = j'
    · subst hj
      rw [if_pos rfl] at hsentOn
      obtain ⟨arrived, pending, hsent, harrived, hflight⟩ := h
      obtain ⟨c, hcopies, -, -, -, hanomalies⟩ := hsend.copy
      have hdelay : p.anomalies.extraDelay = 0 := by
        rw [← hanomalies]
        exact hdelays j hextra c (hcopies ▸ List.mem_cons_self ..)
      refine ⟨arrived, pending ++ [(s.now, p)], by rw [hsentOn, hsent, List.append_assoc], harrived, fun delivery hdelivery => ?_⟩
      have hf := hflight delivery (he.forwarders ▸ hdelivery)
      constructor
      case queue =>
        have hpush := MaxHeap.push_perm slot ⟨p.data, s.now, (net.link j).delay⟩ (s.links j).inTransit.queue
        rw [hsend.inTransit, hdelay, Nat.add_zero, List.map_append]
        exact hpush.trans ((hf.queue.cons _).trans (List.perm_append_singleton _ _).symm)
      case due =>
        intro x hx
        rw [he.frame.now]
        rcases List.mem_append.1 hx with hx | hx
        · exact hf.due x hx
        · rw [List.mem_singleton.1 hx]
          exact Nat.le_add_right _ _
      case limit => exact hf.limit
      case timer =>
        intro deadline hsleep
        obtain ⟨first, rest, rfl, hdeadline⟩ := hf.timer deadline hsleep
        exact ⟨first, rest ++ [(s.now, p)], rfl, hdeadline⟩
      case registered =>
        -- the push wakes the forwarder
        intro hmem
        rw [hsend.inTransit] at hmem
        simp [InboundQueue.send] at hmem
    · rw [if_neg hj, List.append_nil] at hsentOn
      exact h.frame he.frame.now (congrFun he.forwarders j) (he.inTransit_of_ne hj) hsentOn
  · refine h.frame he.frame.now (congrFun he.forwarders j) ?_ (State.sentOn_of_unsent hobserves j)
    by_cases hj : j = j'
    · rw [hj, hinTransit]
    · exact he.inTransit_of_ne hj

theorem other (h : FifoInv net j arrivals s) {j' : LinkIx} {draws : Nat → Draws} (hj : j ≠ j')
    (hstep : s.forwardPacketsFromLinkToNode net j' draws = some s') : FifoInv net j arrivals s' := by
  have htake : ∀ q task, FifoInv net j arrivals ((s.setInTransit j' q).setForwarder j' task) := fun q task =>
    h.frame rfl (by simp [State.setForwarder, State.setInTransit, State.setLink, hj])
      (by simp [State.setForwarder, State.setInTransit, State.setLink, hj]) rfl
  obtain ⟨q, ⟨delivery, rfl⟩ | ⟨delivered, result, hresult, hs'⟩⟩ := State.exists_of_forwardPacketsFromLinkToNode hstep
  · exact htake _ _
  · obtain ⟨kinds, hs, -, -⟩ := Stretches.forwardDelivered net j' delivered draws
      ((s.setInTransit j' q).setForwarder j' (.awaiting (.new usizeMax)))
    have hsettled := (htake q (.awaiting (.new usizeMax))).stretch hs
    rw [hresult] at hsettled
    obtain rfl | ⟨s₁, rfl, rfl⟩ := hs'
    · exact hsettled
    · exact FifoInv.frame hsettled rfl (by simp [State.setForwarder, hj]) rfl rfl

theorem delivered {arrived done tail : List (Nat × OutgoingPacket)} {delivery : NextPacketDelivery} {a : Action}
    {draws : Nat → Draws} (hsent : s.sentOn j = arrived ++ (done ++ tail))
    (harrived : List.Forall₂ (ArrivesInTime net j) arrived arrivals) (harrive : ∀ x ∈ done, s.now = x.1 + (net.link j).delay)
    (hforwarder : s.forwarders j = .awaiting delivery) (hf : InFlight net s j tail delivery) (ha : a.forwards j)
    (hstep : (match State.forwardDelivered net j ((done.map (inTransitOf net j)).map PrioritizedInTransitData.deliver) draws s with
      | .ok s => some s
      | .error s => some (s.setForwarder j .panicked)) = some s') : FifoInv net j (arrivals ++ stepArrivals j s a s') s' := by
  obtain ⟨kinds, hs, hall, hok⟩ := Stretches.forwardDelivered net j
    ((done.map (inTransitOf net j)).map PrioritizedInTransitData.deliver) draws s
  -- as many packets of the batch have arrived as arrivals were recorded
  have hmore : List.Forall₂ (ArrivesInTime net j) (done.take kinds.length) (kinds.map fun kind => (s.now, kind)) := by
    rw [← List.map_take, ← List.map_take, List.forall₂_map_left_iff, List.forall₂_map_left_iff] at hall
    rw [List.forall₂_map_right_iff]
    exact (List.forall₂_and_left _ _).2 ⟨fun x hx => harrive x (List.mem_of_mem_take hx), hall⟩
  have hsplit : arrived ++ (done ++ tail) = (arrived ++ done.take kinds.length) ++ (done.drop kinds.length ++ tail) := by
    rw [List.append_assoc, ← List.append_assoc (done.take _), List.take_append_drop]
  have hsentOn := (hs.sentOn j).trans (hsent.trans hsplit)
  have harrivals := hs.stepArrivals_eq ha
  generalize State.forwardDelivered net j ((done.map (inTransitOf net j)).map PrioritizedInTransitData.deliver) draws s =
    result at hstep hs hok hsentOn harrivals
  cases result with
  | ok s₁ =>
    obtain rfl := Option.some.inj hstep
    rw [State.settled_ok] at hs hsentOn harrivals
    refine ⟨_, _, hsentOn, harrivals ▸ List.rel_append harrived hmore, fun delivery' hdelivery => ?_⟩
    have hlen : done.length = kinds.length := by simpa using (hok rfl).symm
    obtain rfl : delivery = delivery' := by
      rw [hs.forwarders, hforwarder] at hdelivery
      exact ForwarderTask.awaiting.inj hdelivery
    rw [← hlen, List.drop_length, List.nil_append]
    exact hf.frame hs.now (hs.inTransit j)
  | error s₁ =>
    obtain rfl := Option.some.inj hstep
    rw [State.settled_error] at hs hsentOn harrivals
    have heq : stepArrivals j s a (s₁.setForwarder j .panicked) = kinds.map fun kind => (s.now, kind) := harrivals
    refine ⟨_, _, hsentOn, heq ▸ List.rel_append harrived hmore, fun delivery' hdelivery => ?_⟩
    simp [State.setForwarder] at hdelivery

theorem forwarder (h : FifoInv net j arrivals s) {a : Action} {draws : Nat → Draws} (ha : a.forwards j)
    (hstep : s.forwardPacketsFromLinkToNode net j draws = some s') (hsorted : (s.sentOn j).Pairwise fun x y => x.1 < y.1) :
    FifoInv net j (arrivals ++ stepArrivals j s a s') s' := by
  obtain ⟨arrived, pending, hsent, harrived, hflight⟩ := h
  have hpending : pending.Pairwise fun x y => x.1 < y.1 := by
    rw [hsent] at hsorted
    exact (List.pairwise_append.1 hsorted).2.1
  have htask : ∀ q task, ((s.setInTransit j q).setForwarder j task).forwarders j = task := by
    simp [State.setForwarder]
  -- a poll that hands out nothing
  have hawaits : ∀ q delivery, InFlight net ((s.setInTransit j q).setForwarder j (.awaiting delivery)) j pending delivery →
      FifoInv net j (arrivals ++ stepArrivals j s a ((s.setInTransit j q).setForwarder j (.awaiting delivery)))
        ((s.setInTransit j q).setForwarder j (.awaiting delivery)) := by
    intro q delivery hf
    have hnone : stepArrivals j s a ((s.setInTransit j q).setForwarder j (.awaiting delivery)) = [] := by
      simp [stepArrivals, State.setForwarder, State.setInTransit, State.setLink]
    rw [hnone, List.append_nil]
    refine ⟨arrived, pending, hsent, harrived, fun delivery' hdelivery => ?_⟩
    obtain rfl : delivery = delivery' := ForwarderTask.awaiting.inj ((htask q _).symm.trans hdelivery)
    exact hf
  unfold State.forwardPacketsFromLinkToNode at hstep
  cases hforwarder : s.forwarders j with
  | panicked => simp [hforwarder] at hstep
  | awaiting delivery =>
    have hf := hflight delivery hforwarder
    have hpoll := NextPacketDelivery.poll_cases delivery (s.links j).inTransit s.now j hf.limit
    simp only [hforwarder] at hstep
    generalize delivery.poll (s.links j).inTransit s.now j = result at hstep hpoll
    cases hpoll with
    | asleep deadline hsleep hlt =>
      obtain rfl := Option.some.inj hstep
      exact hawaits _ _ (.taken hf.queue hf.due hf.limit hf.timer hf.registered)
    | empty hawake hq =>
      obtain rfl := Option.some.inj hstep
      have hnil : pending = [] := by simpa [hq] using hf.queue
      exact hawaits _ _ (.taken hf.queue hf.due hf.limit (by simp) fun _ => hnil)
    | early hawake p hp hmin hlt =>
      obtain rfl := Option.some.inj hstep
      obtain ⟨x, rest, hx, harrival⟩ := hf.earliest hpending hp hmin
      have htimer : ∀ deadline, some p.arrivalTime = some deadline →
          ∃ x rest, pending = x :: rest ∧ deadline = x.1 + (net.link j).delay := fun deadline hdeadline =>
        ⟨x, rest, hx, by rw [← harrival]; exact (Option.some.inj hdeadline).symm⟩
      exact hawaits _ _ (.taken hf.queue hf.due hf.limit htimer hf.registered)
    | ready hawake batch rest sleep hne hdue htimer =>
      obtain ⟨done, tail, rfl, rfl, hrest, harrive⟩ := hf.batch hpending hdue
      have htaken : InFlight net ((s.setInTransit j { (s.links j).inTransit with queue := rest }).setForwarder j
          (.awaiting (.new usizeMax))) j tail (.new usizeMax) :=
        .taken hrest (fun x hx => hf.due x (List.mem_append_right _ hx)) (by decide) (by simp [NextPacketDelivery.new])
          fun hmem => (List.append_eq_nil_iff.1 (hf.registered hmem)).2
      have hsentOn : ((s.setInTransit j { (s.links j).inTransit with queue := rest }).setForwarder j
          (.awaiting (.new usizeMax))).sentOn j = arrived ++ (done ++ tail) := hsent
      have hdelivered := delivered hsentOn harrived harrive (htask _ _) htaken ha hstep
      exact hdelivered

theorem step (h : FifoInv net j arrivals s) (hpacer : PacerInv net s) (hdelays : DelayInv net s) (hj : j < net.links.length)
    (hextra : (net.link j).extraDelay = 0) {a : Action} (hC : TimersExact net s a) (hstep : net.step s a = some s') :
    FifoInv net j (arrivals ++ stepArrivals j s a s') s' := by
  have hnone : a.forwards j = false → FifoInv net j arrivals s' → FifoInv net j (arrivals ++ stepArrivals j s a s') s' := by
    intro ha h
    rwa [stepArrivals, ha, if_neg (by simp), List.append_nil]
  cases a with
  | advance duration =>
    obtain rfl := Option.some.inj hstep
    exact hnone rfl (h.advance (hC j hj) (hpacer.sorted j))
  | networkEvent =>
    rw [InMemoryNetwork.step] at hstep
    split at hstep
    · simp at hstep
    · rename_i event events hevents
      split_ifs at hstep
      obtain rfl := Option.some.inj hstep
      have hevents : FifoInv net j arrivals { s with events } := h.frame rfl rfl rfl rfl
      exact hnone rfl (hevents.stretch (Stretches.processEvent net _ event))
  | trySend i transmit uuid draws =>
    obtain ⟨kinds, hs⟩ := Stretches.trySend hstep
    exact hnone rfl (h.stretch hs)
  | pollRecv i metaLen => exact hnone rfl (h.stretch (Stretches.pollRecv hstep))
  | nodeTask i rolls =>
    rw [InMemoryNetwork.step] at hstep
    split_ifs at hstep
    exact hnone rfl (h.stretch (Stretches.processBufferForNode hstep))
  | linkTask j' slot =>
    rw [InMemoryNetwork.step] at hstep
    split_ifs at hstep
    exact hnone rfl (h.linkEffect (State.processLinkQueue_effect hstep) hdelays hextra)
  | forwarder j' draws =>
    rw [InMemoryNetwork.step] at hstep
    split_ifs at hstep
    by_cases hjj : j = j'
    · subst hjj
      exact h.forwarder (by simp [Action.forwards]) hstep (hpacer.sorted j)
    · exact hnone (by simp [Action.forwards, Ne.symm hjj]) (h.other hjj hstep)

/-- The induction is on the run, whose arrivals come behind those before it. -/
theorem run (hj : j < net.links.length) (hextra : (net.link j).extraDelay = 0) {as : List Action}
    (h : FifoInv net j arrivals s) (hpacer : PacerInv net s) (hdelays : DelayInv net s)
    (hC : net.machine.Guarded (TimersExact net) s as) (hrun : net.machine.run s as = some s') :
    FifoInv net j (arrivals ++ arrivalsOff net j s as) s' := by
  induction as generalizing s arrivals with
  | nil =>
    obtain rfl := Option.some.inj hrun
    rwa [arrivalsOff, List.append_nil]
  | cons a as ih =>
    obtain ⟨t, hstep, hrest⟩ := Machine.run_cons_eq_some.1 hrun
    have hstep : net.step s a = some t := hstep
    rw [arrivalsOff, hstep, ← List.append_assoc]
    exact ih (h.step hpacer hdelays hj hextra hC.1 hstep) ((PacerInv.preserved net).step hstep hpacer)
      ((DelayInv.preserved net).step hstep hdelays) (hC.2 t hstep) hrest

theorem initialized {spec : NetworkSpec} {networkEvents : NetworkEvents} {s₀ : State} {simulationStart start now : Nat}
    {disableTimeWarping : Bool} (hinit : InMemoryNetwork.initializeNetwork spec networkEvents simulationStart start now
      disableTimeWarping = .ok (net, s₀)) (j : LinkIx) : FifoInv net j [] s₀ := by
  refine InMemoryNetwork.initializeNetwork_induction (I := FifoInv net j []) hinit ?_ ?_ ?_
  · refine ⟨[], [], rfl, .nil, fun delivery hdelivery => ?_⟩
    obtain rfl := ForwarderTask.awaiting.inj hdelivery
    exact { queue := .nil
            due := by simp
            limit := by decide
            timer := by simp [NextPacketDelivery.new]
            registered := fun _ => rfl }
  · intro s payload _ h
    have hf := s.processLinkEvent_frame net payload
    exact h.frame hf.now (congrFun hf.forwarders j) (hf.inTransit j) (State.sentOn_of_observes (.inl hf.history) j)
  · intro s payload _ h
    have hf := s.processNodeEvent_frame net payload
    exact h.frame hf.now (congrFun hf.forwarders j) (hf.inTransit j) (State.sentOn_of_observes (.inl hf.history) j)

end FifoInv

/-! ### Results -/

/-- The link sends its packets in the order in which they were offered to it, and in which their nodes accepted them;
they arrive in the order of the sends, each the delay of the link after it was sent. -/
structure LinkFifo (net : InMemoryNetwork) (s : State) (j : LinkIx) (arrivals : List (Nat × SimulationStepKind)) : Prop where
  queue : ((s.sentOn j).map (·.2.stay)).Sublist (offeredOn j s.history)
  source : ∀ i, (((s.sentOn j).filter fun x => x.2.srcNode = i).map (·.2.stay)).Sublist (acceptedStaysAt i s.history)
  arrive : List.Forall₂ (ArrivesInTime net j) ((s.sentOn j).take arrivals.length) arrivals

/-- No packet that has not arrived was sent longer ago than the delay of the link. -/
def NoneOverdue (net : InMemoryNetwork) (s : State) (j : LinkIx) (arrivals : List (Nat × SimulationStepKind)) : Prop :=
  ∀ x ∈ (s.sentOn j).drop arrivals.length, s.now ≤ x.1 + (net.link j).delay

instance (net : InMemoryNetwork) (s : State) (j : LinkIx) (arrivals : List (Nat × SimulationStepKind)) :
    Decidable (NoneOverdue net s j arrivals) := by
  unfold NoneOverdue
  infer_instance

/-- With exact timers and without extra delays, links are first in, first out. If the address at the end of the link is one
by which nodes are found, and the task of the node there takes no packet without a route, the link leaves no packet
behind. -/
theorem link_fifo {spec : NetworkSpec} {networkEvents : NetworkEvents} {net : InMemoryNetwork} {s₀ s : State}
    {simulationStart start now : Nat} {disableTimeWarping : Bool} (hinit : InMemoryNetwork.initializeNetwork spec
      networkEvents simulationStart start now disableTimeWarping = .ok (net, s₀)) {as : List Action}
    (htimers : net.machine.Guarded (TimersExact net) s₀ as) (hrun : net.machine.run s₀ as = some s) {j : LinkIx}
    (hj : j < net.links.length) (hextra : (net.link j).extraDelay = 0) :
    LinkFifo net s j (arrivalsOff net j s₀ as) ∧
      ((∃ n ∈ spec.nodes, n.Registers (net.link j).target) →
        (∀ i, net.nodesByAddr.lookup (net.link j).target = some i → net.machine.Guarded (TakesRoutable i net) s₀ as) →
        NoneOverdue net s j (arrivalsOff net j s₀ as)) := by
  have horder : StaysInv net s ∧ OrderInv s := (OrderInv.preserved net).run hrun
    ((OrderInv.preserved net).initialized hinit ⟨.initial net _ _, .initial net _ _⟩)
  have hpacer : PacerInv net s₀ := (PacerInv.preserved net).initialized hinit (.initial net _ _)
  have hdelays : DelayInv net s₀ := (DelayInv.preserved net).initialized hinit (.initial net _ _)
  obtain ⟨arrived, pending, hsent, harrived, hflight⟩ :=
    (FifoInv.initialized hinit j).run hj hextra hpacer hdelays htimers hrun
  rw [List.nil_append] at harrived
  have hlen : (arrivalsOff net j s₀ as).length = arrived.length := harrived.length_eq.symm
  constructor
  · refine ⟨(List.sublist_append_left ..).trans (horder.2.queue j), horder.2.sublist_accepted horder.1 j, ?_⟩
    rw [hsent, hlen, List.take_left]
    exact harrived
  · intro hregisters hroutable
    obtain ⟨hbuild, -⟩ := InMemoryNetwork.initializeNetwork_ok hinit
    obtain ⟨i, htarget⟩ := Option.isSome_iff_exists.1 
      ((InMemoryNetwork.nodesByAddr_isSome_iff hbuild _).2 hregisters)
    have hstarted : Started s₀ := .initialized hinit
    have hforwards : Forwards s j i := Machine.run_invariant_of_guarded (M := net.machine) (I := fun s => Forwards s j i)
      (fun _ _ _ h hC hstep => InMemoryNetwork.forwards_step
        (fun n hn a ha => InMemoryNetwork.isSome_routesByAddr hbuild hn ha) htarget h hC hstep)
      (hroutable i htarget) ⟨hstarted.nodeTasks i, hstarted.forwarders j⟩ hrun
    rw [NoneOverdue, hsent, hlen, List.drop_left]
    cases hforwarder : s.forwarders j with
    | panicked =>
      have hgoesOn := hforwards.goesOn
      simp [hforwarder, ForwarderTask.hasPanicked] at hgoesOn
    | awaiting delivery => exact (hflight delivery hforwarder).due

namespace HostPair

/-- A poll of the forwarder of the link. -/
def forward (j : LinkIx) : Action := .forwarder j fun _ => draws 0

/-- `A` sends two packets on its first link, one after the other, and both arrive. -/
def sendTwo : List Action :=
  [forward 0, forward 1] ++ sendFromA 1 ++ [.linkTask 0 0, forward 0] ++ sendFromA 2 ++
    [.linkTask 0 0, .advance (Duration.fromMillis 1), .linkTask 0 0, .advance (Duration.fromMillis 4), forward 0, forward 0,
      .advance (Duration.fromMillis 1), forward 0, forward 0, .advance 1]

/-- `B` sends a packet to the second address of `A`, and the forwarder of the link panics. -/
def sendToSecondAddress : List Action :=
  [forward 0, .trySend 1 { transmit with destination := ⟨.v4 a₂, hostPort⟩ } 1 (draws 0), .nodeTask 1 rolls, .linkTask 0 0,
    forward 0, .advance (Duration.fromMillis 5), forward 0, .advance 1]

end HostPair

/-- Both packets have arrived. -/
theorem link_fifo_hostPair : ∃ net s₀ s, InMemoryNetwork.initializeNetwork (hostPair 8000000 0)
    (.new [] (hostPair 8000000 0).nodes (hostPair 8000000 0).links) 0 0 0 false = .ok (net, s₀) ∧
    net.machine.run s₀ HostPair.sendTwo = some s ∧ (s.sentOn 0).map Prod.fst = [0, Duration.fromMillis 1] ∧
    s.now = Duration.fromMillis 6 + 1 ∧ (net.link 0).delay = Duration.fromMillis 5 ∧
    LinkFifo net s 0 (arrivalsOff net 0 s₀ HostPair.sendTwo) ∧ NoneOverdue net s 0 (arrivalsOff net 0 s₀ HostPair.sendTwo) := by
  obtain ⟨net, s₀, s, hinit, hC, hrun, hs⟩ := exists_of_simulateGuarded (hostPair 8000000 0) [] HostPair.sendTwo
    (fun net s a => TimersExact net s a ∧ TakesRoutable 1 net s a)
    (fun net s => decide (0 < net.links.length) && decide ((net.link 0).extraDelay = 0) &&
      decide (net.nodesByAddr.lookup (net.link 0).target = some 1) &&
      decide ((s.sentOn 0).map Prod.fst = [0, Duration.fromMillis 1]) && decide (s.now = Duration.fromMillis 6 + 1) &&
      decide ((net.link 0).delay = Duration.fromMillis 5))
    (by decide +kernel)
  simp only [Bool.and_eq_true, decide_eq_true_eq] at hs
  obtain ⟨⟨⟨⟨⟨hj, hextra⟩, htarget⟩, hsent⟩, hnow⟩, hdelay⟩ := hs
  have htimers : net.machine.Guarded (TimersExact net) s₀ HostPair.sendTwo := hC.mono fun _ _ h => h.1
  obtain ⟨hfifo, hnone⟩ := link_fifo hinit htimers hrun hj hextra
  refine ⟨net, s₀, s, hinit, hrun, hsent, hnow, hdelay, hfifo, hnone ?_ ?_⟩
  · refine (InMemoryNetwork.nodesByAddr_isSome_iff (InMemoryNetwork.initializeNetwork_ok hinit).1 _).1 ?_
    rw [htarget]
    rfl
  · intro i hi
    obtain rfl := Option.some.inj (htarget.symm.trans hi)
    exact hC.mono fun _ _ h => h.2

/-- The packet has neither arrived nor been lost when its time is over. -/
theorem packet_left_behind : ∃ net s₀ s, InMemoryNetwork.initializeNetwork linkToSecondAddress
    (.new [] linkToSecondAddress.nodes linkToSecondAddress.links) 0 0 0 false = .ok (net, s₀) ∧
    net.machine.Guarded (TimersExact net) s₀ HostPair.sendToSecondAddress ∧
    net.machine.run s₀ HostPair.sendToSecondAddress = some s ∧ 0 < net.links.length ∧ (net.link 0).extraDelay = 0 ∧
    ¬ NoneOverdue net s 0 (arrivalsOff net 0 s₀ HostPair.sendToSecondAddress) := by
  obtain ⟨net, s₀, s, hinit, hC, hrun, hs⟩ := exists_of_simulateGuarded linkToSecondAddress [] HostPair.sendToSecondAddress
    TimersExact
    (fun net s => decide (0 < net.links.length) && decide ((net.link 0).extraDelay = 0) &&
      match InMemoryNetwork.initializeNetwork linkToSecondAddress
        (.new [] linkToSecondAddress.nodes linkToSecondAddress.links) 0 0 0 false with
      | .ok (net, s₀) => !decide (NoneOverdue net s 0 (arrivalsOff net 0 s₀ HostPair.sendToSecondAddress))
      | .error _ => false)
    (by decide +kernel)
  simp only [hinit, Bool.and_eq_true, decide_eq_true_eq, Bool.not_eq_eq_eq_not, Bool.not_true, decide_eq_false_iff_not] at hs
  exact ⟨net, s₀, s, hinit, hC, hrun, hs.1.1, hs.1.2, hs.2⟩

end QuicWorkbench
