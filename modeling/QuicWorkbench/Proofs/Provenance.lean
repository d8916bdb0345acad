import QuicWorkbench.Proofs.Custody
import QuicWorkbench.Proofs.Overtaking

/-!
# Where packets come from

Whatever comes to a node was sent by an application, with the same contents and from the same endpoint, and has
travelled along links of the graph for at least as long as they take. This holds of duplicates too, and whatever
the ids of the packets are: the number of a packet says which send it comes from.
-/

namespace QuicWorkbench

/-- A send of an application at a host. -/
structure Sending where
  time : Nat
  node : NodeIx
  transmit : OwnedTransmit

/-- The send of the action. -/
def Action.sending (s : State) : Action → Option Sending
  | .trySend i transmit _ _ => some ⟨s.now, i, transmit⟩
  | _ => none

/-- The sends of a run, by number. -/
def sendings (net : InMemoryNetwork) (s : State) : List Action → List Sending
  | [] => []
  | a :: as => (a.sending s).toList ++ ((net.step s a).map (sendings net · as)).getD []

theorem sendings_append {net : InMemoryNetwork} {s s' : State} {as : List Action} (hrun : net.machine.run s as = some s')
    (as' : List Action) : sendings net s (as ++ as') = sendings net s as ++ sendings net s' as' := by
  induction as generalizing s with
  | nil =>
    obtain rfl := Option.some.inj hrun
    rfl
  | cons a as ih =>
    obtain ⟨t, hstep, hrest⟩ := Machine.run_cons_eq_some.1 hrun
    have hstep : net.step s a = some t := hstep
    rw [List.cons_append, sendings, sendings, hstep, Option.map_some, Option.map_some, Option.getD_some, Option.getD_some,
      ih hrest, List.append_assoc]

/-- The packet has the source and the contents of the send. -/
structure Sending.Describes (net : InMemoryNetwork) (x : Sending) (d : InTransitData) : Prop where
  sourceId : d.sourceId = (net.node x.node).id
  endpoint : (net.node x.node).udpEndpoint = some d.sourceEndpoint
  transmit : ∃ ecn, d.transmit = { x.transmit with ecn }

/-- The packet comes from one of the sends, and could have got to the node since. -/
def SentAs (net : InMemoryNetwork) (sends : List Sending) (t : Nat) (i : NodeIx) (d : InTransitData) : Prop :=
  ∃ x D, sends[d.number]? = some x ∧ x.Describes net d ∧ Travels net.Linked x.node D i ∧ x.time + D ≤ t

namespace SentAs
variable {net : InMemoryNetwork} {sends : List Sending}

theorem custody (net : InMemoryNetwork) (sends : List Sending) : Custody net (SentAs net sends) where
  wait t t' i d h hle := by
    obtain ⟨x, D, hx, hdesc, htravels, ht⟩ := h
    exact ⟨x, D, hx, hdesc, htravels, ht.trans hle⟩
  cross t t' i i' delay d h hlinked hle := by
    obtain ⟨x, D, hx, hdesc, htravels, ht⟩ := h
    refine ⟨x, D + delay, hx, hdesc, htravels.tail hlinked, ?_⟩
    omega
  copy t i d uuid h := by
    obtain ⟨x, D, hx, hdesc, hrest⟩ := h
    exact ⟨x, D, hx, ⟨hdesc.sourceId, hdesc.endpoint, hdesc.transmit⟩, hrest⟩
  mark t i d ecn h := by
    obtain ⟨x, D, hx, hdesc, hrest⟩ := h
    obtain ⟨ecn', htransmit⟩ := hdesc.transmit
    exact ⟨x, D, hx, ⟨hdesc.sourceId, hdesc.endpoint, ecn, by rw [htransmit]⟩, hrest⟩

theorem append {t : Nat} {i : NodeIx} {d : InTransitData} (h : SentAs net sends t i d) (sends' : List Sending) :
    SentAs net (sends ++ sends') t i d := by
  obtain ⟨x, D, hx, hrest⟩ := h
  exact ⟨x, D, (List.getElem?_append_left (List.getElem?_eq_some_iff.1 hx).1).trans hx, hrest⟩

theorem sent {s : State} {i : NodeIx} {endpoint : UdpEndpoint} {transmit : OwnedTransmit} {uuid : Uuid}
    (hlen : sends.length = s.nextTransmitNumber) (hhost : (net.node i).udpEndpoint = some endpoint) :
    SentAs net (sends ++ [⟨s.now, i, transmit⟩]) s.now i (s.inTransitData net i endpoint transmit uuid) := by
  refine ⟨⟨s.now, i, transmit⟩, 0, ?_, ⟨rfl, hhost, transmit.ecn, rfl⟩, .refl, Nat.le_refl _⟩
  rw [State.inTransitData, ← hlen, List.getElem?_concat_length]

end SentAs

/-- The numbers of packets are positions in `sends`, from which all packets come. -/
def ProvenanceInv (net : InMemoryNetwork) (sends : List Sending) (s : State) : Prop :=
  sends.length = s.nextTransmitNumber ∧ InCustody net (SentAs net sends) ⟨[], s⟩

namespace ProvenanceInv
variable {net : InMemoryNetwork} {spec : NetworkSpec} {s s' : State} {sends : List Sending} {a : Action}

theorem step (h : ProvenanceInv net sends s) (htables : net.Tables spec) (hstays : StaysInv net s)
    (hstep : net.step s a = some s') : ProvenanceInv net (sends ++ (a.sending s).toList) s' := by
  obtain ⟨hlen, hcustody⟩ := h
  refine ⟨?_, ?_⟩
  · have hflow : (a.sending s).toList.length = (a.flow net).toList.length := by cases a <;> rfl
    rw [List.length_append, hlen, hflow, InMemoryNetwork.nextTransmitNumber_step hstep]
  · have hmono := hcustody.mono fun t i d (hd : SentAs net sends t i d) => hd.append (a.sending s).toList
    refine hmono.step (SentAs.custody net _) htables hstays hstep fun i transmit uuid draws endpoint ha hhost => ?_
    subst ha
    exact SentAs.sent hlen hhost

/-- The induction is on the run, whose sends come behind those before it. -/
theorem run (htables : net.Tables spec) {as : List Action} (h : ProvenanceInv net sends s) (hstays : StaysInv net s)
    (hrun : net.machine.run s as = some s') : ProvenanceInv net (sends ++ sendings net s as) s' := by
  induction as generalizing s sends with
  | nil =>
    obtain rfl := Option.some.inj hrun
    rwa [sendings, List.append_nil]
  | cons a as ih =>
    obtain ⟨t, hstep, hrest⟩ := Machine.run_cons_eq_some.1 hrun
    have hstep : net.step s a = some t := hstep
    have hsends : sends ++ sendings net s (a :: as) = sends ++ (a.sending s).toList ++ sendings net t as := by
      rw [sendings, hstep, List.append_assoc]
      rfl
    rw [hsends]
    exact ih (h.step htables hstays hstep) ((StaysInv.preserved net).step hstep hstays) hrest

theorem initialized {networkEvents : NetworkEvents} {s₀ : State} {simulationStart start now : Nat} {disableTimeWarping : Bool}
    (hinit : InMemoryNetwork.initializeNetwork spec networkEvents simulationStart start now disableTimeWarping = .ok (net, s₀)) :
    ProvenanceInv net [] s₀ := by
  have hN := SentAs.custody net []
  refine InMemoryNetwork.initializeNetwork_induction (I := ProvenanceInv net []) hinit ⟨rfl, .initial net _ _ _⟩ ?_ ?_
  · rintro s payload - ⟨hlen, hcustody⟩
    exact ⟨hlen.trans (s.processLinkEvent_nextTransmitNumber net payload).symm, hcustody.processEvent hN ⟨0, .link payload⟩⟩
  · rintro s payload - ⟨hlen, hcustody⟩
    exact ⟨hlen.trans (s.processNodeEvent_nextTransmitNumber net payload).symm, hcustody.processEvent hN ⟨0, .node payload⟩⟩

end ProvenanceInv

theorem ProvenanceInv.of_run {net : InMemoryNetwork} {spec : NetworkSpec} {networkEvents : NetworkEvents} {s₀ s : State}
    {simulationStart start now : Nat} {disableTimeWarping : Bool} {as : List Action}
    (hinit : InMemoryNetwork.initializeNetwork spec networkEvents simulationStart start now disableTimeWarping = .ok (net, s₀))
    (hrun : net.machine.run s₀ as = some s) : ProvenanceInv net (sendings net s₀ as) s := by
  have htables := InMemoryNetwork.buildNetwork_tables (InMemoryNetwork.initializeNetwork_ok hinit).1
  exact (ProvenanceInv.initialized hinit).run htables ((StaysInv.preserved net).initialized hinit (.initial net _ _)) hrun

/-! ### Results -/

/-- `A` sends a packet, which arrives at `B`. -/
def HostPair.sendToB : List Action :=
  HostPair.sendFromA 1 ++ [.linkTask 0 0, .advance (Duration.fromMillis 5), HostPair.forward 0]

/-- An arrival is that of a packet that was sent, of its size, after the delays of links that lead there. -/
def FromSend (net : InMemoryNetwork) (sends : List Sending) (time : Nat) (p : PacketInNode) : Prop :=
  ∃ x D i, sends[p.packetNumber]? = some x ∧ p.packetSizeBytes = x.transmit.packetSize ∧ (net.node i).id = p.nodeId ∧
    Travels net.Linked x.node D i ∧ x.time + D ≤ time

/-- Every arrival that the log has comes from a send, and so does every packet that waits at a host, whose address is
its destination. -/
structure FromSends (net : InMemoryNetwork) (sends : List Sending) (s : State) : Prop where
  arrivals : ∀ step ∈ s.log, ∀ p, step.kind = .packetInNode p → FromSend net sends (net.simulationStart + step.relativeTime) p
  waiting : ∀ i, ∀ e ∈ (s.nodes i).inbound.queue, SentAs net sends s.now i e.data ∧
    (net.node i).udpEndpoint.any (·.addr = e.data.transmit.destination)

/-- Nothing comes from anywhere else, and nothing comes sooner than the links of the graph allow. -/
theorem fromSends_of_run {net : InMemoryNetwork} {spec : NetworkSpec} {networkEvents : NetworkEvents} {s₀ s : State}
    {simulationStart start now : Nat} {disableTimeWarping : Bool} {as : List Action}
    (hinit : InMemoryNetwork.initializeNetwork spec networkEvents simulationStart start now disableTimeWarping = .ok (net, s₀))
    (hrun : net.machine.run s₀ as = some s) : FromSends net (sendings net s₀ as) s := by
  obtain ⟨-, hcustody⟩ := ProvenanceInv.of_run hinit hrun
  refine ⟨fun step hstep p hp => ?_, fun i e he => hcustody.places false (.inbound i) e.data (.inbound he)⟩
  obtain ⟨i, d, t, heq, ⟨x, D, hx, hdesc, htravels, ht⟩, -, htime⟩ := hcustody.logged step hstep p hp
  obtain ⟨ecn, htransmit⟩ := hdesc.transmit
  rw [heq]
  refine ⟨x, D, i, hx, ?_, rfl, htravels, ?_⟩
  · rw [State.packetInNodeStep, InTransitData.packetSize, htransmit]
    rfl
  · omega

/-- The packet of `A` comes to `B`, which is 5 ms away. -/
theorem fromSends_hostPair : ∃ net s₀ s, InMemoryNetwork.initializeNetwork (hostPair 8000000 0)
    (.new [] (hostPair 8000000 0).nodes (hostPair 8000000 0).links) 0 0 0 false = .ok (net, s₀) ∧
    net.machine.run s₀ HostPair.sendToB = some s ∧ numbersAt "B" s.log = [0] ∧ (s.nodes 1).inbound.queue.length = 1 ∧
    FromSends net (sendings net s₀ HostPair.sendToB) s := by
  obtain ⟨net, s₀, s, hinit, -, hrun, hs⟩ := exists_of_simulateGuarded (hostPair 8000000 0) [] HostPair.sendToB
    (fun _ _ _ => True) (fun net s => decide (numbersAt "B" s.log = [0] ∧ (s.nodes 1).inbound.queue.length = 1))
    (by decide +kernel)
  obtain ⟨hlog, hqueue⟩ := of_decide_eq_true hs
  exact ⟨net, s₀, s, hinit, hrun, hlog, hqueue, fromSends_of_run hinit hrun⟩

end QuicWorkbench
