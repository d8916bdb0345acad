import QuicWorkbench.Lib.Pipes
import QuicWorkbench.Proofs.Fifo

/-!
# The network as queues

If no link has an extra delay and every node has at most one candidate link for each destination, the network is one of
queues (`Pipes`): what a node forwards goes on over one link in the order in which it came, and a link delivers in the
order of its sends. `Carries` says which queues a state stands for; what a task does, the queues do step by step.
-/

namespace QuicWorkbench

/-- The host that packets come from, and the address that they go to. -/
structure Flow where
  sourceId : String
  destination : SocketAddr
  deriving DecidableEq

def InTransitData.flow (d : InTransitData) : Flow := { sourceId := d.sourceId, destination := d.transmit.destination }

/-- The flow and the number of the packet, which its duplicates have, too. -/
def InTransitData.token (d : InTransitData) : Flow × Nat := (d.flow, d.number)

/-- The address is that of the node's endpoint. -/
def Node.isAt (node : Node) (destination : SocketAddr) : Bool := node.udpEndpoint.any (·.addr = destination)

namespace InMemoryNetwork

/-- Where the flows go from link to link, each over its first candidate link. -/
def routes (net : InMemoryNetwork) : Routes NodeIx LinkIx Flow where
  source f := (net.nodesById.lookup f.sourceId).getD 0
  link f i := if (net.node i).isAt f.destination then none else (net.candidateLinks (net.node i) f.destination.ip).bind List.head?
  target j := net.nodesByAddr.lookup (net.link j).target

/-- Every node has at most one candidate link for each destination. -/
def OneCandidate (net : InMemoryNetwork) : Prop :=
  ∀ i < net.nodes.length, ∀ dest links, net.candidateLinks (net.node i) dest = some links → ∀ j ∈ links, ∀ j' ∈ links, j = j'

end InMemoryNetwork

def SimulationStepKind.numberAt (nodeId : String) : SimulationStepKind → Option Nat
  | .packetInNode s => if s.nodeId = nodeId then some s.packetNumber else none
  | _ => none

/-- The numbers of the packets that came to the node, by creation or off a link. -/
def numbersAt (nodeId : String) (log : List SimulationStep) : List Nat := log.filterMap (·.kind.numberAt nodeId)

theorem Stretches.numbersAt {net : InMemoryNetwork} {s s' : State} {ks : List SimulationStepKind} (h : Stretches net s s' ks)
    (nodeId : String) : numbersAt nodeId s'.log = numbersAt nodeId s.log ++ ks.filterMap (·.numberAt nodeId) := by
  obtain ⟨kinds, heq, hks⟩ := h.log
  have hother : ∀ kind : SimulationStepKind, kind.isArrival = false → kind.numberAt nodeId = none := by
    intro kind hkind
    cases kind <;> first | rfl | simp [SimulationStepKind.isArrival] at hkind
  rw [heq, QuicWorkbench.numbersAt, QuicWorkbench.numbersAt, List.filterMap_append, List.filterMap_map, ← hks,
    List.filterMap_filter]
  congr 1
  refine List.filterMap_congr fun kind _ => ?_
  by_cases hkind : kind.isArrival
  · simp [hkind]
  · simp [hkind, hother kind (by simpa using hkind)]

/-! ### The network as queues -/

/-- The packets wait and travel as the state has them; the forwarder of a link holds packets that it has yet to forward. -/
structure Carries (net : InMemoryNetwork) (hand : LinkIx → List InTransitData) (s : State) (p : Pipes NodeIx LinkIx Flow Nat) :
    Prop where
  waiting : ∀ i, p.waiting i = (s.nodes i).outbound.map (·.data.token)
  elsewhere : ∀ i, ∀ b ∈ (s.nodes i).outbound, (net.node i).isAt b.data.transmit.destination = false
  onLink : ∀ j, ∃ pending : List (Nat × OutgoingPacket), pending.Sublist (s.sentOn j) ∧
    (s.links j).inTransit.queue.Perm (pending.map (inTransitOf net j)) ∧
    p.onLink j = (hand j ++ pending.map (·.2.data) ++ (s.copies j).map (·.data)).map InTransitData.token

/-- The queues get to where the state has the packets, and no packet comes to a node. -/
def GoesOn (net : InMemoryNetwork) (C : Flow × Nat → Prop) (hand : LinkIx → List InTransitData) (p : Pipes NodeIx LinkIx Flow Nat)
    (s' : State) : Prop :=
  ∃ p', Pipes.Steps net.routes C p p' ∧ p'.arrived = p.arrived ∧ Carries net hand s' p'

namespace Carries
variable {net : InMemoryNetwork} {hand hand' : LinkIx → List InTransitData} {s s' : State} {p p' : Pipes NodeIx LinkIx Flow Nat}
  {C : Flow × Nat → Prop} {i : NodeIx} {j : LinkIx} {d : InTransitData} {ks : List SimulationStepKind}

theorem frame (h : Carries net hand s p) (houtbound : ∀ i, (s'.nodes i).outbound = (s.nodes i).outbound)
    (hinTransit : ∀ j, (s'.links j).inTransit = (s.links j).inTransit) (hsentOn : ∀ j, s'.sentOn j = s.sentOn j)
    (hcopies : ∀ j, s'.copies j = s.copies j) : Carries net hand s' p where
  waiting i := by rw [houtbound, h.waiting]
  elsewhere i b hb := h.elsewhere i b (houtbound i ▸ hb)
  onLink j := by
    rw [hsentOn, hinTransit, hcopies]
    exact h.onLink j

theorem goesOn (h : Carries net hand s p) : GoesOn net C hand p s := ⟨p, .refl, rfl, h⟩

theorem drop (h : Carries net hand s p) (hhand : ∀ j, (hand' j).Sublist (hand j))
    (houtbound : ∀ i, (s'.nodes i).outbound.Sublist (s.nodes i).outbound)
    (hinTransit : ∀ j, (s'.links j).inTransit = (s.links j).inTransit) (hsentOn : ∀ j, s'.sentOn j = s.sentOn j)
    (hcopies : ∀ j, ((s'.copies j).map (·.data.token)).Sublist ((s.copies j).map (·.data.token))) :
    GoesOn net C hand' p s' := by
  choose pending hsub hperm heq using h.onLink
  refine ⟨⟨p.arrived, fun i => (s'.nodes i).outbound.map (·.data.token),
    fun j => (hand' j ++ (pending j).map (·.2.data) ++ (s'.copies j).map (·.data)).map InTransitData.token⟩,
    .single (.drop _ rfl (fun i => ?_) fun j => ?_), rfl, ⟨fun i => rfl, fun i b hb => ?_, fun j => ?_⟩⟩
  · rw [h.waiting]
    exact (houtbound i).map _
  · rw [heq]
    show List.Sublist (List.map _ _) _
    simp only [List.map_append, List.map_map]
    exact (((hhand j).map _).append (List.Sublist.refl _)).append (hcopies j)
  · exact h.elsewhere i b ((houtbound i).subset hb)
  · refine ⟨pending j, ?_, ?_, rfl⟩
    · rw [hsentOn]
      exact hsub j
    · rw [hinTransit]
      exact hperm j

end Carries

theorem GoesOn.trans {net : InMemoryNetwork} {C : Flow × Nat → Prop} {hand hand' : LinkIx → List InTransitData}
    {p : Pipes NodeIx LinkIx Flow Nat} {s s' : State} (h : GoesOn net C hand p s)
    (h' : ∀ p', p'.arrived = p.arrived → Carries net hand s p' → GoesOn net C hand' p' s') : GoesOn net C hand' p s' := by
  obtain ⟨p', hsteps, harrived, hcarries⟩ := h
  obtain ⟨p'', hsteps', harrived', hcarries'⟩ := h' p' harrived hcarries
  exact ⟨p'', hsteps.trans hsteps', harrived'.trans harrived, hcarries'⟩

namespace Carries
variable {net : InMemoryNetwork} {hand hand' : LinkIx → List InTransitData} {s s' : State} {p p' : Pipes NodeIx LinkIx Flow Nat}
  {C : Flow × Nat → Prop} {i : NodeIx} {j : LinkIx} {d : InTransitData} {before : List (Flow × Nat)}

theorem enqueueOutbound (h : Carries net hand s p) (hlast : p.arrived i = before ++ [d.token])
    (helsewhere : (net.node i).isAt d.transmit.destination = false) (t : Nat) :
    GoesOn net C hand p (State.settled (s.enqueueOutbound net i t d)) := by
  have hs := Stretches.enqueueOutbound net s i t d
  unfold State.enqueueOutbound at hs ⊢
  cases hbuffer : (s.nodes i).outboundBuffer.reserve d.packetSize with
  | none =>
    simp only [hbuffer] at hs
    exact Carries.goesOn (h.frame (fun i' => rfl) hs.inTransit hs.sentOn fun j => rfl)
  | some buffer =>
    simp only [hbuffer] at hs
    dsimp only
    by_cases htask : (s.accept i buffer d).nodeTasks i = .running
    · -- the packet is put at the end of the channel
      rw [if_pos htask] at hs ⊢
      have houtbound := s.outbound_pushOutbound_accept i buffer d ⟨t, d, s.nextStay⟩
      refine ⟨p.setWaiting i (p.waiting i ++ [d.token]), .single (.wait i d.token before hlast), rfl, ?_⟩
      constructor
      case waiting =>
        intro i'
        rw [State.settled, houtbound i']
        by_cases hi : i' = i
        · subst hi
          simp [Pipes.setWaiting, h.waiting]
        · simp [Pipes.setWaiting, h.waiting, hi]
      case elsewhere =>
        intro i' b hb
        rw [State.settled, houtbound i'] at hb
        rcases List.mem_append.1 hb with hb | hb
        · exact h.elsewhere i' b hb
        · split_ifs at hb with hi
          · rw [List.mem_singleton.1 hb, hi]
            exact helsewhere
          · simp at hb
      case onLink =>
        intro j
        have hlink := h.onLink j
        rw [← hs.sentOn j, ← hs.inTransit j] at hlink
        exact hlink
    · rw [if_neg htask] at hs ⊢
      exact (h.frame (State.outbound_accept s i buffer d) hs.inTransit hs.sentOn fun j => rfl).goesOn

theorem forward (h : Carries net hand s p) (hlast : p.arrived i = before ++ [d.token]) (draws : Draws) :
    GoesOn net C hand p (State.settled (s.forward net i d draws)) := by
  have hrecord : ∀ {s : State} {p : Pipes NodeIx LinkIx Flow Nat} (kind : SimulationStepKind), Carries net hand s p →
      Carries net hand (s.record net kind) p := fun kind h => h.frame (fun _ => rfl) (fun _ => rfl) (fun _ => rfl) fun _ => rfl
  unfold State.forward
  by_cases hdown : (s.nodes i).isDown
  · rw [if_pos hdown]
    exact (hrecord _ h).goesOn
  rw [if_neg hdown]
  have hin : Carries net hand (s.trackPacketInNode net i d) p := hrecord _ h
  dsimp only
  split_ifs with hhere
  · refine Carries.goesOn (hin.frame (fun i' => ?_) (fun j => rfl) (fun j => rfl) fun j => rfl)
    by_cases hi : i' = i
    · subst hi
      simp [State.settled, State.sendInbound, State.setNode]
    · simp [State.settled, State.sendInbound, State.setNode, hi]
  · exact (hrecord _ hin).goesOn
  · have helsewhere : (net.node i).isAt d.transmit.destination = false := by simpa [Node.isAt] using hhere
    have hid : Carries net hand ((s.trackPacketInNode net i d).newPacketId draws.uuid) p :=
      hin.frame (fun _ => rfl) (fun _ => rfl) (fun _ => rfl) fun _ => rfl
    have hfirst := hid.enqueueOutbound (C := C) hlast helsewhere (s.trackPacketInNode net i d).now
    cases hresult : State.enqueueOutbound net ((s.trackPacketInNode net i d).newPacketId draws.uuid) i
        (s.trackPacketInNode net i d).now d with
    | error s' =>
      rw [hresult] at hfirst
      exact hfirst
    | ok s' =>
      rw [hresult] at hfirst
      simp only [Bind.bind, Except.bind, State.trackInjectedFailures_duplicate]
      refine hfirst.trans fun p' harrived h' => ?_
      exact (hrecord _ h').enqueueOutbound (d := { d with id := draws.uuid, duplicate := true }) (harrived ▸ hlast) helsewhere _
  · exact hin.enqueueOutbound hlast (by simpa [Node.isAt] using hhere) _

end Carries

/-- What came to the nodes is what the log says. -/
def Logged (net : InMemoryNetwork) (s : State) (p : Pipes NodeIx LinkIx Flow Nat) : Prop :=
  ∀ i < net.nodes.length, (p.arrived i).map Prod.snd = numbersAt (net.node i).id s.log

/-- Every node is found by its id. -/
def InMemoryNetwork.IdsFound (net : InMemoryNetwork) : Prop := ∀ i < net.nodes.length, net.nodesById.lookup (net.node i).id = some i

namespace Logged
variable {net : InMemoryNetwork} {s s' : State} {p p' : Pipes NodeIx LinkIx Flow Nat} {ks : List SimulationStepKind} {i : NodeIx}
  {d : InTransitData} {dropped : Bool}

theorem frame (h : Logged net s p) (hnumbers : ∀ nodeId, numbersAt nodeId s'.log = numbersAt nodeId s.log)
    (harrived : p'.arrived = p.arrived) : Logged net s' p' := by
  intro i hi
  rw [harrived, hnumbers]
  exact h i hi

theorem quiet (h : Logged net s p) (hs : Stretches net s s' ks) (hks : ∀ nodeId, ks.filterMap (·.numberAt nodeId) = [])
    (harrived : p'.arrived = p.arrived) : Logged net s' p' :=
  h.frame (fun nodeId => by rw [hs.numbersAt, hks, List.append_nil]) harrived

theorem come (h : Logged net s p) (hids : net.IdsFound)
    (hs : Stretches net s s' [.packetInNode (State.packetInNodeStep net i d dropped)]) (hi : i < net.nodes.length)
    (harrived : p'.arrived = (p.come i d.token).arrived) : Logged net s' p' := by
  intro i' hi'
  rw [harrived, hs.numbersAt]
  by_cases heq : i' = i
  · subst heq
    simp [Pipes.come, h i' hi', SimulationStepKind.numberAt, State.packetInNodeStep, InTransitData.token]
  · have hne : (net.node i).id ≠ (net.node i').id := by
      intro hid
      have hfound := hids i' hi'
      rw [← hid, hids i hi] at hfound
      exact heq (Option.some.inj hfound).symm
    simp [Pipes.come, heq, h i' hi', SimulationStepKind.numberAt, State.packetInNodeStep, hne]

end Logged

/-- The forwarder of the link holds the packets. -/
def inHand (j : LinkIx) (batch : List InTransitData) : LinkIx → List InTransitData := Function.update (fun _ => []) j batch

theorem inHand_nil (j : LinkIx) : inHand j [] = fun _ => [] := Function.update_eq_self j _

/-- The queues get to where the state has the packets, and what comes to the nodes is logged. -/
def GetsTo (net : InMemoryNetwork) (C : Flow × Nat → Prop) (p : Pipes NodeIx LinkIx Flow Nat) (s' : State) : Prop :=
  ∃ p', Pipes.Steps net.routes C p p' ∧ Carries net (fun _ => []) s' p' ∧ Logged net s' p'

namespace Carries
variable {net : InMemoryNetwork} {s s' : State} {p p' : Pipes NodeIx LinkIx Flow Nat} {C : Flow × Nat → Prop} {i : NodeIx}
  {j : LinkIx} {d : InTransitData} {batch batch' : List InTransitData} {ks : List SimulationStepKind}

theorem forget (h : Carries net (inHand j batch) s p) (hsub : batch'.Sublist batch) : GoesOn net C (inHand j batch') p s := by
  refine h.drop (fun j' => ?_) (fun _ => List.Sublist.refl _) (fun _ => rfl) (fun _ => rfl) fun _ => List.Sublist.refl _
  by_cases hj : j' = j
  · subst hj
    simpa [inHand] using hsub
  · simp [inHand, hj]

theorem arrive (h : Carries net (inHand j (d :: batch)) s p) (htarget : net.routes.target j = some i) :
    ∃ p', Pipes.Step net.routes C p p' ∧ p'.arrived = (p.come i d.token).arrived ∧ Carries net (inHand j batch) s p' := by
  obtain ⟨pending, hsub, hperm, heq⟩ := h.onLink j
  have hnext : p.onLink j = d.token :: (batch ++ pending.map (·.2.data) ++ (s.copies j).map (·.data)).map InTransitData.token := by
    rw [heq]
    simp [inHand]
  refine ⟨_, .arrive i j d.token _ htarget hnext, rfl, h.waiting, h.elsewhere, fun j' => ?_⟩
  by_cases hj : j' = j
  · subst hj
    refine ⟨pending, hsub, hperm, ?_⟩
    simp [Pipes.come, Pipes.setOnLink, inHand]
  · obtain ⟨pending, hsub, hperm, heq⟩ := h.onLink j'
    refine ⟨pending, hsub, hperm, ?_⟩
    simpa [Pipes.come, Pipes.setOnLink, inHand, hj] using heq

theorem forwardDelivered (htables : ∀ a i, net.nodesByAddr.lookup a = some i → i < net.nodes.length) (hids : net.IdsFound)
    (j : LinkIx) (delivered : List DeliveredTransmit) (draws : Nat → Draws) {s : State} {p : Pipes NodeIx LinkIx Flow Nat}
    (h : Carries net (inHand j (delivered.map (·.data))) s p) (hlogged : Logged net s p) :
    GetsTo net C p (State.settled (State.forwardDelivered net j delivered draws s)) := by
  induction delivered generalizing draws s p with
  | nil =>
    rw [List.map_nil, inHand_nil] at h
    exact ⟨p, .refl, h, hlogged⟩
  | cons x delivered ih =>
    rw [State.forwardDelivered]
    rw [List.map_cons] at h
    split_ifs with hdown
    · -- the packet is lost in transit
      have hs : Stretches net s (s.trackLostInTransit net j x.data) _ := .arrival net s rfl
      obtain ⟨p', hsteps, harrived, h'⟩ := h.forget (C := C) (List.sublist_cons_self ..)
      have h' : Carries net (inHand j (delivered.map (·.data))) (s.trackLostInTransit net j x.data) p' :=
        h'.frame (fun _ => rfl) hs.inTransit hs.sentOn fun _ => rfl
      obtain ⟨p'', hsteps', hcarries, hlogged'⟩ := ih (fun k => draws (k + 1)) h' (hlogged.quiet hs (fun _ => rfl) harrived)
      exact ⟨p'', hsteps.trans hsteps', hcarries, hlogged'⟩
    cases htarget : net.nodesByAddr.lookup (net.link j).target with
    | none =>
      obtain ⟨p', hsteps, harrived, h'⟩ := h.forget (C := C) (List.nil_sublist _)
      rw [inHand_nil] at h'
      exact ⟨p', hsteps, h', hlogged.frame (fun _ => rfl) harrived⟩
    | some i =>
      obtain ⟨dropped, hs⟩ := Stretches.forward net s i x.data (draws 0)
      obtain ⟨p₁, hstep, harrived, h₁⟩ := h.arrive (C := C) (i := i) htarget
      have hlast : p₁.arrived i = p.arrived i ++ [x.data.token] := by
        rw [harrived]
        simp [Pipes.come]
      obtain ⟨p₂, hsteps, harrived', h₂⟩ := h₁.forward (C := C) hlast (draws 0)
      have hlogged₂ := hlogged.come hids hs (htables _ _ htarget) (harrived'.trans harrived)
      cases hresult : s.forward net i x.data (draws 0) with
      | error s' =>
        rw [hresult] at hs h₂ hlogged₂
        simp only [hresult, Bind.bind, Except.bind]
        obtain ⟨p₃, hforget, harrived₃, h₃⟩ := h₂.forget (C := C) (List.nil_sublist _)
        rw [inHand_nil] at h₃
        exact ⟨p₃, (hsteps.trans hforget).head hstep, h₃, hlogged₂.frame (fun _ => rfl) harrived₃⟩
      | ok s' =>
        rw [hresult] at hs h₂ hlogged₂
        simp only [hresult, Bind.bind, Except.bind]
        obtain ⟨p₃, hrest, h₃, hlogged₃⟩ := ih (fun k => draws (k + 1)) h₂ hlogged₂
        exact ⟨p₃, (hsteps.trans hrest).head hstep, h₃, hlogged₃⟩

end Carries

/-! ### What the tasks do -/

namespace Carries
variable {net : InMemoryNetwork} {s s' : State} {p : Pipes NodeIx LinkIx Flow Nat} {C : Flow × Nat → Prop} {i : NodeIx}
  {j : LinkIx}

theorem create (h : Carries net (fun _ => []) s p) (hlogged : Logged net s p) (hids : net.IdsFound) (hi : i < net.nodes.length)
    {d : InTransitData} (hsource : d.sourceId = (net.node i).id) (hC : C d.token)
    (hnew : ∀ i, ∀ x ∈ p.arrived i, x.2 < d.number) (draws : Draws) :
    GetsTo net C p (State.settled (s.forward net i d draws)) := by
  obtain ⟨dropped, hs⟩ := Stretches.forward net s i d draws
  have hstart : net.routes.source d.token.1 = i := by
    show (net.nodesById.lookup d.sourceId).getD 0 = i
    rw [hsource, hids i hi]
    rfl
  have hstep := Pipes.Step.create (R := net.routes) d.token hC hnew
  rw [hstart] at hstep
  have hcome : Carries net (fun _ => []) s (p.come i d.token) := { h with }
  have hlast : (p.come i d.token).arrived i = p.arrived i ++ [d.token] := by simp [Pipes.come]
  obtain ⟨p', hsteps, harrived, h'⟩ := hcome.forward (C := C) hlast draws
  exact ⟨p', hsteps.head hstep, h', hlogged.come hids hs hi harrived⟩

theorem trySend (h : Carries net (fun _ => []) s p) (hlogged : Logged net s p) (hids : net.IdsFound) {transmit : OwnedTransmit}
    {uuid : Uuid} {draws : Draws} (hC : C ({ sourceId := (net.node i).id, destination := transmit.destination }, s.nextTransmitNumber))
    (hnew : ∀ i, ∀ x ∈ p.arrived i, x.2 < s.nextTransmitNumber) (hsend : s.trySend net i transmit uuid draws = some s') :
    GetsTo net C p s' := by
  unfold State.trySend at hsend
  split at hsend
  · simp at hsend
  · rename_i endpoint hhost
    have hi : i < net.nodes.length := by
      by_contra hi
      rw [InMemoryNetwork.node, List.getD_eq_getElem?_getD, List.getElem?_eq_none (Nat.le_of_not_lt hi)] at hhost
      simp [default] at hhost
    split_ifs at hsend
    obtain rfl := Option.some.inj hsend
    have hs : Stretches net s (s.create uuid) [] := .quiet rfl rfl (fun _ => rfl) (fun _ => rfl) rfl
    have hcreate : Carries net (fun _ => []) (s.create uuid) p :=
      h.frame (fun _ => rfl) hs.inTransit hs.sentOn fun _ => rfl
    exact hcreate.create (hlogged.quiet hs (fun _ => rfl) rfl) hids hi rfl hC hnew draws

theorem pollRecv (h : Carries net (fun _ => []) s p) {metaLen : Nat} (hpoll : s.pollRecv net i metaLen = some s') :
    Carries net (fun _ => []) s' p := by
  have hs := Stretches.pollRecv hpoll
  obtain ⟨q, delivery, read, rfl⟩ := State.exists_of_pollRecv hpoll
  refine h.frame (fun i' => ?_) hs.inTransit hs.sentOn fun j => rfl
  by_cases hi : i' = i <;> simp [State.setNode, hi]

theorem processEvent (h : Carries net (fun _ => []) s p) (event : NetworkEvent) :
    Carries net (fun _ => []) (s.processEvent net event) p := by
  have hframe : ∀ {s' : State}, State.EventFrame s s' → Carries net (fun _ => []) s' p := fun hf =>
    h.frame hf.outbound hf.inTransit (State.sentOn_of_observes (.inl hf.history)) fun j => by
      rw [State.copies, State.copies, hf.linkTasks, hf.outgoingQueue]
  unfold State.processEvent
  cases event.kind with
  | link payload => exact hframe (s.processLinkEvent_frame net payload)
  | node payload => exact hframe (s.processNodeEvent_frame net payload)

theorem offer (h : Carries net (fun _ => []) s p) {packet : BufferedPacket} {outbound : List BufferedPacket}
    {links done : List LinkIx} {rolls : Nat → Roll × Roll} (hnext : (s.nodes i).outbound = packet :: outbound)
    (hlinks : net.candidateLinks (net.node i) packet.data.transmit.destination.ip = some links)
    (hone : ∀ j ∈ links, ∀ j' ∈ links, j = j') (hdone : ∀ j ∈ done, j ∈ links) :
    GoesOn net C (fun _ => []) p (State.pushCopies net i packet links done rolls (s.takeOutbound i packet outbound links)) := by
  obtain ⟨links', heq, hlinks'⟩ := State.pushCopies_spec net i packet links done rolls (s.takeOutbound i packet outbound links)
  have hcopies : ∀ j, ((State.pushCopies net i packet links done rolls (s.takeOutbound i packet outbound links)).copies j).map
      (·.data.token) = (s.copies j).map (·.data.token) ++ List.replicate (done.count j) packet.data.token := by
    intro j
    refine State.map_copies_pushCopies (s := s.takeOutbound i packet outbound links) (·.data.token) (fun _ _ => rfl) ?_ rfl j
    rw [heq]
  have houtbound : ∀ i', ((State.pushCopies net i packet links done rolls
      (s.takeOutbound i packet outbound links)).nodes i').outbound = if i' = i then outbound else (s.nodes i').outbound := by
    intro i'
    rw [heq]
    by_cases hi : i' = i <;> simp [State.takeOutbound, State.observe, State.setNode, hi]
  have hinTransit : ∀ j, ((State.pushCopies net i packet links done rolls
      (s.takeOutbound i packet outbound links)).links j).inTransit = (s.links j).inTransit := by
    intro j
    obtain ⟨new, hj, -⟩ := hlinks' j
    rw [heq]
    show (links' j).inTransit = _
    rw [hj]
    rfl
  have hsentOn : ∀ j, (State.pushCopies net i packet links done rolls (s.takeOutbound i packet outbound links)).sentOn j =
      s.sentOn j := by
    rw [heq]
    exact State.sentOn_of_observes (.inr ⟨.offered packet.stay links, rfl, rfl⟩)
  generalize State.pushCopies net i packet links done rolls (s.takeOutbound i packet outbound links) = s'
    at hcopies houtbound hinTransit hsentOn
  cases links with
  | nil =>
    -- nobody gets a copy
    obtain rfl : done = [] := List.eq_nil_iff_forall_not_mem.2 fun j hj => by simpa using hdone j hj
    refine h.drop (fun _ => List.Sublist.refl _) (fun i' => ?_) hinTransit hsentOn fun j => ?_
    · rw [houtbound]
      split_ifs with hi
      · rw [hi, hnext]
        exact List.sublist_cons_self ..
      · exact List.Sublist.refl _
    · rw [hcopies]
      simp
  | cons j links =>
    have hlink : net.routes.link packet.data.token.1 i = some j := by
      have helsewhere := h.elsewhere i packet (by simp [hnext])
      show (if (net.node i).isAt packet.data.transmit.destination then none else
        (net.candidateLinks (net.node i) packet.data.transmit.destination.ip).bind List.head?) = some j
      rw [helsewhere, hlinks]
      rfl
    have hwaiting : p.waiting i = packet.data.token :: outbound.map (·.data.token) := by
      rw [h.waiting, hnext]
      rfl
    refine ⟨_, .single (.go i j packet.data.token _ (done.count j) hwaiting hlink), rfl, ?_⟩
    constructor
    case waiting =>
      intro i'
      rw [houtbound]
      by_cases hi : i' = i
      · subst hi
        simp [Pipes.setWaiting, Pipes.setOnLink]
      · simp [Pipes.setWaiting, Pipes.setOnLink, hi, h.waiting]
    case elsewhere =>
      intro i' b hb
      rw [houtbound] at hb
      split_ifs at hb with hi
      · subst hi
        exact h.elsewhere i' b (hnext ▸ List.mem_cons_of_mem _ hb)
      · exact h.elsewhere i' b hb
    case onLink =>
      intro j'
      obtain ⟨pending, hsub, hperm, honLink⟩ := h.onLink j'
      refine ⟨pending, by rwa [hsentOn], by rwa [hinTransit], ?_⟩
      have hcopies := hcopies j'
      by_cases hj : j' = j
      · subst hj
        simp only [Pipes.setWaiting, Pipes.setOnLink, Function.update_self, honLink, List.map_append, List.map_map,
          List.append_assoc]
        exact congrArg _ (congrArg _ hcopies.symm)
      · -- the other links get no copies
        have hnone : done.count j' = 0 := by
          rw [List.count_eq_zero]
          exact fun hmem => hj (hone j' (hdone j' hmem) j (List.mem_cons_self ..))
        rw [hnone, List.replicate_zero, List.append_nil] at hcopies
        simp only [Pipes.setWaiting, Pipes.setOnLink, Function.update_of_ne hj, honLink, List.map_append, List.map_map]
        exact congrArg _ hcopies.symm

theorem endNodeTask (h : Carries net (fun _ => []) s p) (i : NodeIx) (task : NodeTask) :
    GoesOn net C (fun _ => []) p (s.endNodeTask i task) := by
  refine h.drop (fun _ => List.Sublist.refl _) (fun i' => ?_) (fun _ => rfl) (fun _ => rfl) fun _ => List.Sublist.refl _
  by_cases hi : i' = i
  · simp [State.endNodeTask, State.setNodeTask, State.setNode, hi]
  · simp [State.endNodeTask, State.setNodeTask, State.setNode, hi]

theorem processBufferForNode (h : Carries net (fun _ => []) s p) (hone : net.OneCandidate) (hi : i < net.nodes.length)
    {rolls : Nat → Roll × Roll} (htake : s.processBufferForNode net i rolls = some s') :
    GoesOn net C (fun _ => []) p s' := by
  obtain ⟨packet, outbound, -, hnext, htakes⟩ := State.processBufferForNode_takes htake
  cases htakes with
  | panic => exact h.endNodeTask i _
  | unroutable => exact h.endNodeTask i _
  | offer links _ hlinks => exact h.offer hnext hlinks (hone i hi _ _ hlinks) fun _ hj => hj
  | panicOffer links done rest j _ hlinks hsplit =>
    have hdone : ∀ j ∈ done, j ∈ links := fun j' hj' => hsplit ▸ List.mem_append_left _ hj'
    exact (h.offer hnext hlinks (hone i hi _ _ hlinks) hdone).trans fun p' _ h' => h'.endNodeTask i _

end Carries

theorem token_applyCongestion {anomalies : PacketAnomalies} {d d' : InTransitData}
    (h : NetworkLink.applyCongestion anomalies d = some d') : d'.token = d.token := by
  obtain ⟨ecn, rfl⟩ := exists_ecn_of_applyCongestion h
  rfl

theorem LinkEffect.token_of_send {net : InMemoryNetwork} {s s' : State} {j : LinkIx} {q : OutgoingPacket} {slot : Nat}
    (he : LinkEffect net j s s') (hsend : SendFrame net j q slot s s') :
    (s.copies j).map (·.data.token) = q.data.token :: (s'.copies j).map (·.data.token) := by
  obtain ⟨c, hcopies, -⟩ := hsend.copy
  have hhistory := hsend.history
  rw [hcopies, List.map_cons]
  congr 1
  cases he with
  | park p s₁ task hp =>
    obtain ⟨queue, rfl⟩ := hp.eq_dequeue
    simp [State.setLinkTask, State.dequeue, State.setLink] at hhistory
  | discard p p' s₁ hp =>
    obtain ⟨queue, rfl⟩ := hp.eq_dequeue
    simp [State.setLinkTask, State.dequeue, State.setLink, State.observe] at hhistory
  | clear p p' s₁ hp =>
    obtain ⟨queue, rfl⟩ := hp.eq_dequeue
    simp [State.setLinkTask, State.dequeue, State.setLink, State.observe, State.setHandled,
      State.trackDroppedByBufferClearEvent, State.trackDropped, State.record] at hhistory
  | panicSend p p' s₁ hp =>
    obtain ⟨queue, rfl⟩ := hp.eq_dequeue
    simp [State.panicLinkTask, State.setLinkTask, State.dequeue, State.setLink, State.observe, State.setHandled] at hhistory
  | send p p' s₁ data slot' hp hhandled hcleared hsane hdata =>
    have hfront := hp.copies
    obtain ⟨links, rfl⟩ := hp.ready
    obtain ⟨queue, rfl⟩ := hp.eq_dequeue
    have hq : { p with preferredLinks := links, data } = q := by
      simpa [State.setLinkTask, State.dequeue, State.setLink, State.observe, State.setHandled, State.transmit, State.setNode,
        State.trackPacketInTransit, State.record] using hhistory
    rw [hcopies] at hfront
    obtain rfl := (List.cons.inj hfront).1
    rw [← hq]
    exact (token_applyCongestion hdata).symm

theorem LinkEffect.numbersAt {net : InMemoryNetwork} {s s' : State} {j : LinkIx} (he : LinkEffect net j s s') (nodeId : String) :
    numbersAt nodeId s'.log = numbersAt nodeId s.log := by
  cases he with
  | park p s₁ task hp =>
    obtain ⟨queue, rfl⟩ := hp.eq_dequeue
    rfl
  | discard p p' s₁ hp =>
    obtain ⟨queue, rfl⟩ := hp.eq_dequeue
    rfl
  | panicSend p p' s₁ hp =>
    obtain ⟨queue, rfl⟩ := hp.eq_dequeue
    rfl
  | clear p p' s₁ hp =>
    obtain ⟨queue, rfl⟩ := hp.eq_dequeue
    exact List.filterMap_append.trans (List.append_nil _)
  | send p p' s₁ data slot hp =>
    obtain ⟨queue, rfl⟩ := hp.eq_dequeue
    exact List.filterMap_append.trans (List.append_nil _)

namespace Carries
variable {net : InMemoryNetwork} {s s' : State} {p : Pipes NodeIx LinkIx Flow Nat} {C : Flow × Nat → Prop} {j : LinkIx}

theorem linkEffect (h : Carries net (fun _ => []) s p) (he : LinkEffect net j s s') (hdelays : DelayInv net s)
    (hextra : (net.link j).extraDelay = 0) : GoesOn net C (fun _ => []) p s' := by
  rcases he.sends with ⟨q, slot, hsend⟩ | ⟨hobserves, -, hinTransit⟩
  · -- the packet goes from the front of the queue to the end of those in transit
    refine ⟨p, .refl, rfl, fun i => ?_, fun i b hb => ?_, fun j' => ?_⟩
    · rw [he.outbound, h.waiting]
    · exact h.elsewhere i b (he.outbound i ▸ hb)
    · obtain ⟨pending, hsub, hperm, honLink⟩ := h.onLink j'
      rw [State.sentOn_snoc hsend.history]
      by_cases hj : j' = j
      · subst hj
        obtain ⟨c, hcopies, -, -, -, hanomalies⟩ := hsend.copy
        have hdelay : q.anomalies.extraDelay = 0 := by
          rw [← hanomalies]
          exact hdelays j' hextra c (hcopies ▸ List.mem_cons_self ..)
        have htoken := he.token_of_send hsend
        refine ⟨pending ++ [(s.now, q)], ?_, ?_, ?_⟩
        · rw [if_pos rfl]
          exact hsub.append (List.Sublist.refl _)
        · have hpush := MaxHeap.push_perm slot ⟨q.data, s.now, (net.link j').delay⟩ (s.links j').inTransit.queue
          rw [hsend.inTransit, hdelay, Nat.add_zero, List.map_append]
          exact hpush.trans ((hperm.cons _).trans (List.perm_append_singleton _ _).symm)
        · rw [honLink]
          simp only [List.map_append, List.map_map, List.append_assoc, List.map_cons, List.map_nil, List.cons_append,
            List.nil_append]
          exact congrArg _ htoken
      · rw [if_neg hj, List.append_nil, he.inTransit_of_ne hj, he.copies_of_ne hj]
        exact ⟨pending, hsub, hperm, honLink⟩
  · refine h.drop (fun _ => List.Sublist.refl _) (fun i => by rw [he.outbound]) (fun j' => ?_)
      (State.sentOn_of_unsent hobserves) (he.copies_sublist (·.data.token) fun _ _ => rfl)
    by_cases hj : j' = j
    · rw [hj, hinTransit]
    · exact he.inTransit_of_ne hj

theorem forwarder (h : Carries net (fun _ => []) s p) (hlogged : Logged net s p)
    (htables : ∀ a i, net.nodesByAddr.lookup a = some i → i < net.nodes.length) (hids : net.IdsFound)
    (hsorted : (s.sentOn j).Pairwise fun x y => x.1 < y.1) {draws : Nat → Draws}
    (hforward : s.forwardPacketsFromLinkToNode net j draws = some s') : GetsTo net C p s' := by
  -- what the poll leaves behind
  have htake : ∀ (batch : List PrioritizedInTransitData) (q : InboundQueue) (task : ForwarderTask),
      (s.links j).inTransit.queue.Perm (batch ++ q.queue) →
      batch.Pairwise (fun p r => (PrioritizedInTransitData.cmp r p).isLE) →
      (∀ p ∈ batch, NextPacketDelivery.Earliest p q.queue) →
      Carries net (inHand j (batch.map (·.data))) ((s.setInTransit j q).setForwarder j task) p := by
    intro batch q task hperm hbatch hearlier
    refine ⟨h.waiting, h.elsewhere, fun j' => ?_⟩
    obtain ⟨pending, hsub, hpending, honLink⟩ := h.onLink j'
    by_cases hj : j' = j
    · subst hj
      obtain ⟨done, rest, rfl, rfl, htail⟩ := InFlight.exists_done (hsorted.sublist hsub) hpending hperm hbatch hearlier
      refine ⟨rest, (List.sublist_append_right ..).trans hsub, ?_, ?_⟩
      · simpa [State.setForwarder, State.setInTransit, State.setLink] using htail
      · rw [honLink]
        simp [inHand, State.copies, State.setForwarder, State.setInTransit, State.setLink, inTransitOf, Function.comp_def]
    · refine ⟨pending, hsub, ?_, ?_⟩
      · simpa [State.setForwarder, State.setInTransit, State.setLink, hj] using hpending
      · simpa [inHand, State.copies, State.setForwarder, State.setInTransit, State.setLink, hj] using honLink
  have hlogged' : ∀ q task, Logged net ((s.setInTransit j q).setForwarder j task) p := fun q task => hlogged
  unfold State.forwardPacketsFromLinkToNode at hforward
  cases htask : s.forwarders j with
  | panicked => simp [htask] at hforward
  | awaiting delivery =>
    obtain ⟨batch, hperm, -, -, hbatch, hearlier, hresult⟩ := delivery.poll_takes (s.links j).inTransit s.now j
    simp only [htask] at hforward
    generalize delivery.poll (s.links j).inTransit s.now j = result at hforward hperm hearlier hresult
    obtain ⟨result, delivery', q⟩ := result
    rcases hresult with ⟨source, hpending, hnil⟩ | ⟨-, hready⟩
    · subst hpending hnil
      obtain rfl := Option.some.inj hforward
      have hkept := htake [] q (.awaiting delivery') hperm hbatch hearlier
      rw [List.map_nil, inHand_nil] at hkept
      exact ⟨p, .refl, hkept, hlogged' q _⟩
    · obtain rfl : result = .ready (batch.map PrioritizedInTransitData.deliver) := hready
      have hheld := htake batch q (.awaiting (.new usizeMax)) hperm hbatch hearlier
      obtain ⟨p', hsteps, h', hlogged''⟩ := forwardDelivered (C := C) htables hids j (batch.map PrioritizedInTransitData.deliver)
        draws (by simpa [PrioritizedInTransitData.deliver, Function.comp_def] using hheld) (hlogged' q _)
      simp only at hforward
      split at hforward
      · rename_i heq
        obtain rfl := Option.some.inj hforward
        rw [heq] at h' hlogged''
        exact ⟨p', hsteps, h', hlogged''⟩
      · rename_i heq
        obtain rfl := Option.some.inj hforward
        rw [heq] at h' hlogged''
        exact ⟨p', hsteps, h'.frame (fun _ => rfl) (fun _ => rfl) (fun _ => rfl) fun _ => rfl, hlogged''⟩

end Carries

end QuicWorkbench
