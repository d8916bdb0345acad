import QuicWorkbench.Lib.Progress
import QuicWorkbench.Proofs.Fifo
import QuicWorkbench.Proofs.Simulate
import QuicWorkbench.Proofs.Waiting

/-!
# The tasks come to rest

As long as the clock stands still and nothing comes from outside, each task can only do so much: a link sends one packet
per instant at most, what arrives is copied twice at most and offered to no more links than there are routes, and a copy takes
a task no more polls than it has links to yield to. So the tasks are at rest after a number of polls that the state
determines (`workload`), also where packets go around in circles.
-/

namespace QuicWorkbench

/-- The tasks of the network, without the events and the applications. -/
def Action.isTask : Action → Bool
  | .nodeTask .. | .linkTask .. | .forwarder .. => true
  | _ => false

/-- The poll hands something out. -/
def DeliveryPoll.isReady : DeliveryPoll → Bool
  | .ready _ => true
  | .pending _ => false

namespace State

/-- A poll of the link's forwarder hands out packets. -/
def delivers (s : State) (j : LinkIx) : Bool :=
  match s.forwarders j with
  | .awaiting delivery => (delivery.poll (s.links j).inTransit s.now j).1.isReady
  | .panicked => false

/-- The action is a poll that gets its task further. -/
def moves (net : InMemoryNetwork) (s : State) : Action → Bool
  | .nodeTask i _ => i < net.nodes.length && s.nodeTasks i = .running && !(s.nodes i).outbound.isEmpty
  | .linkTask j _ => j < net.links.length && !decide (s.Waits j)
  | .forwarder j _ => j < net.links.length && s.delivers j
  | _ => false

/-- No poll gets a task further: the channels are empty where the task runs, the links' tasks wait, and nothing is due. -/
structure AtRest (net : InMemoryNetwork) (s : State) : Prop where
  outbound : ∀ i < net.nodes.length, s.nodeTasks i = .running → (s.nodes i).outbound = []
  waits : ∀ j < net.links.length, s.Waits j
  delivers : ∀ j < net.links.length, s.delivers j = false

instance (net : InMemoryNetwork) (s : State) : Decidable (AtRest net s) :=
  decidable_of_iff ((∀ i < net.nodes.length, s.nodeTasks i = .running → (s.nodes i).outbound = []) ∧
    (∀ j < net.links.length, s.Waits j) ∧ ∀ j < net.links.length, s.delivers j = false)
    ⟨fun h => ⟨h.1, h.2.1, h.2.2⟩, fun h => ⟨h.1, h.2, h.3⟩⟩

end State

namespace InMemoryNetwork

/-- No more links than these are candidates for a packet at the node. -/
def fanoutOf (net : InMemoryNetwork) (node : Node) : Nat :=
  node.addresses.length + (node.addresses.map fun a => ((net.routesByAddr.lookup a).getD []).length + 1).sum

def fanout (net : InMemoryNetwork) : Nat := (net.nodes.map net.fanoutOf).sum

/-- How many polls a packet in a node's channel takes, at most, as long as it is not sent. -/
def offerWork (net : InMemoryNetwork) : Nat := 1 + net.fanout * (net.fanout + 5)

/-- How many polls a packet in flight takes: it may be duplicated where it arrives. -/
def arrivalWork (net : InMemoryNetwork) : Nat := 2 * net.offerWork + 1

end InMemoryNetwork

namespace State

/-- What the link has left to do at this instant: its copies, its packets in flight, and one more if it can send one. -/
def linkLoad (net : InMemoryNetwork) (s : State) (j : LinkIx) : Nat :=
  s.linkWork j + net.arrivalWork * (s.links j).inTransit.queue.length +
    if (s.links j).pacer.canSend s.now then net.arrivalWork else 0

/-- The polls that the tasks can make at this instant, at most. -/
def workload (net : InMemoryNetwork) (s : State) : Nat :=
  (∑ j ∈ Finset.range net.links.length, s.linkLoad net j) +
    ∑ i ∈ Finset.range net.nodes.length, net.offerWork * (s.nodes i).outbound.length

end State

/-! ### Offers -/

namespace InMemoryNetwork
variable {net : InMemoryNetwork}

theorem length_walkLinks_le (net : InMemoryNetwork) (node : Node) (dest : IpAddr) :
    (net.walkLinks node dest).length ≤ net.fanoutOf node := by
  rw [walkLinks, List.length_append, fanoutOf, List.length_flatMap]
  refine Nat.add_le_add (List.length_filterMap_le ..) (List.sum_le_sum fun a _ => ?_)
  cases hroutes : net.routesByAddr.lookup a with
  | none => exact Nat.le_refl _
  | some routes =>
    exact (List.length_filterMap_le ..).trans ((List.length_filterMap_le ..).trans (Nat.le_succ _))

theorem length_of_mapM {walk : List (Option LinkIx)} {links : List LinkIx} (h : walk.mapM id = some links) :
    links.length = walk.length := by
  induction walk generalizing links with
  | nil =>
    obtain rfl := Option.some.inj h
    rfl
  | cons j walk ih =>
    rw [List.mapM_cons] at h
    simp only [Option.bind_eq_bind, Option.bind_eq_some_iff] at h
    rcases h with ⟨_, -, rest, hrest, heq⟩
    obtain rfl := Option.some.inj heq
    rw [List.length_cons, List.length_cons, ih hrest]

theorem length_candidateLinks_le {i : NodeIx} (hi : i < net.nodes.length) {dest : IpAddr} {links : List LinkIx}
    (h : net.candidateLinks (net.node i) dest = some links) : links.length ≤ net.fanout := by
  rw [length_of_mapM h]
  refine (length_walkLinks_le ..).trans ?_
  rw [node_eq_getElem hi]
  exact List.le_sum_of_mem (List.mem_map_of_mem (List.getElem_mem hi))

end InMemoryNetwork

/-! ### What adds to the workload -/

namespace State
variable {net : InMemoryNetwork} {s s' : State}

theorem workload_congr (hnow : s'.now = s.now) (honeshots : s'.oneshots = s.oneshots) (hlinks : s'.links = s.links)
    (htasks : s'.linkTasks = s.linkTasks) (houtbound : ∀ i, (s'.nodes i).outbound = (s.nodes i).outbound) :
    s'.workload net = s.workload net := by
  have hload : s'.linkLoad net = s.linkLoad net := by
    funext j
    rw [linkLoad, linkLoad, linkWork, linkWork, taskWork_congr honeshots, hlinks, htasks, hnow]
  rw [workload, workload, hload]
  simp only [houtbound]

theorem workload_record (s : State) (kind : SimulationStepKind) : (s.record net kind).workload net = s.workload net :=
  workload_congr rfl rfl rfl rfl fun _ => rfl

theorem workload_pushOutbound_le (net : InMemoryNetwork) (s : State) (i : NodeIx) (packet : BufferedPacket) :
    (s.pushOutbound i packet).workload net ≤ s.workload net + net.offerWork := by
  have hsum := Progress.sum_range_le_of_ne (n := net.nodes.length) (i := i) (c := net.offerWork)
    (f := fun i' => net.offerWork * (s.nodes i').outbound.length)
    (g := fun i' => net.offerWork * ((s.pushOutbound i packet).nodes i').outbound.length)
    (fun i' hi => by simp [pushOutbound, setNode, hi])
    (by simp [pushOutbound, setNode, Nat.mul_add])
  show (∑ j ∈ Finset.range net.links.length, s.linkLoad net j) + _ ≤ _
  rw [workload]
  omega

theorem workload_enqueueOutbound_le (net : InMemoryNetwork) (s : State) (i : NodeIx) (t : Nat) (d : InTransitData) :
    (settled (s.enqueueOutbound net i t d)).workload net ≤ s.workload net + net.offerWork := by
  have haccept : ∀ buffer, (s.accept i buffer d).workload net = s.workload net := by
    intro buffer
    exact workload_congr rfl rfl rfl rfl fun i' => s.outbound_accept i buffer d i'
  unfold enqueueOutbound
  cases (s.nodes i).outboundBuffer.reserve d.packetSize with
  | none =>
    rw [settled_ok, trackDroppedBecauseBufferFull, trackDropped, workload_record]
    exact Nat.le_add_right ..
  | some buffer =>
    dsimp only
    split
    · rw [settled_ok, ← haccept buffer]
      exact workload_pushOutbound_le ..
    · rw [settled_error, haccept buffer]
      exact Nat.le_add_right ..

theorem workload_forward_le (net : InMemoryNetwork) (s : State) (i : NodeIx) (d : InTransitData) (draws : Draws) :
    (settled (s.forward net i d draws)).workload net ≤ s.workload net + 2 * net.offerWork := by
  have hin : (s.trackPacketInNode net i d).workload net = s.workload net := workload_record s _
  unfold forward
  by_cases hdown : (s.nodes i).isDown
  · rw [if_pos hdown, settled_ok, trackDroppedOnArrival, workload_record]
    exact Nat.le_add_right ..
  · rw [if_neg hdown]
    dsimp only
    split_ifs
    · have hsend : ((s.trackPacketInNode net i d).sendInbound i d draws.slot).workload net = s.workload net := by
        rw [← hin]
        refine workload_congr rfl rfl rfl rfl fun i' => ?_
        by_cases hi : i' = i <;> simp [sendInbound, setNode, hi]
      rw [settled_ok, hsend]
      exact Nat.le_add_right ..
    · rw [settled_ok, trackDroppedRandomly, trackDropped, workload_record, hin]
      exact Nat.le_add_right ..
    · have hnew : ((s.trackPacketInNode net i d).newPacketId draws.uuid).workload net = s.workload net := by
        rw [← hin]
        exact workload_congr rfl rfl rfl rfl fun _ => rfl
      have hfirst := workload_enqueueOutbound_le net ((s.trackPacketInNode net i d).newPacketId draws.uuid) i
        (s.trackPacketInNode net i d).now d
      cases hresult : enqueueOutbound net ((s.trackPacketInNode net i d).newPacketId draws.uuid) i
          (s.trackPacketInNode net i d).now d with
      | error s' =>
        rw [hresult, settled_error] at hfirst
        show s'.workload net ≤ _
        omega
      | ok s' =>
        rw [hresult, settled_ok] at hfirst
        simp only [Bind.bind, Except.bind, trackInjectedFailures_duplicate]
        refine (workload_enqueueOutbound_le ..).trans ?_
        rw [workload_record]
        omega
    · refine (workload_enqueueOutbound_le ..).trans ?_
      rw [hin]
      omega

theorem workload_forwardDelivered_le (net : InMemoryNetwork) (j : LinkIx) (delivered : List DeliveredTransmit)
    (draws : Nat → Draws) (s : State) :
    (settled (forwardDelivered net j delivered draws s)).workload net ≤
      s.workload net + delivered.length * (2 * net.offerWork) := by
  induction delivered generalizing draws s with
  | nil => exact Nat.le_add_right ..
  | cons x delivered ih =>
    rw [forwardDelivered, List.length_cons, Nat.succ_mul]
    split_ifs
    · refine (ih _ _).trans ?_
      rw [trackLostInTransit, workload_record]
      omega
    · cases net.nodesByAddr.lookup (net.link j).target with
      | none => exact Nat.le_add_right ..
      | some i =>
        have hfirst := workload_forward_le net s i x.data (draws 0)
        cases hresult : s.forward net i x.data (draws 0) with
        | error s' =>
          rw [hresult, settled_error] at hfirst
          simp only [hresult, Bind.bind, Except.bind, settled_error]
          omega
        | ok s' =>
          rw [hresult, settled_ok] at hfirst
          simp only [hresult, Bind.bind, Except.bind]
          have hrest := ih (fun k => draws (k + 1)) s'
          omega

theorem workload_pushOutgoing_le (net : InMemoryNetwork) (s : State) (j : LinkIx) (packet : OutgoingPacket) :
    (s.pushOutgoing j packet).workload net ≤ s.workload net + packetWork packet := by
  have hwork : (s.pushOutgoing j packet).taskWork = s.taskWork := taskWork_congr rfl
  have hne : ∀ j', j' ≠ j → (s.pushOutgoing j packet).linkLoad net j' = s.linkLoad net j' := by
    intro j' hj
    have hlink : (s.pushOutgoing j packet).links j' = s.links j' := by simp [pushOutgoing, setLink, hj]
    rw [linkLoad, linkLoad, linkWork, linkWork, hwork, hlink]
    rfl
  have hself : (s.pushOutgoing j packet).linkLoad net j = s.linkLoad net j + packetWork packet := by
    have hlink : (s.pushOutgoing j packet).links j =
        { s.links j with outgoingQueue := (s.links j).outgoingQueue ++ [packet] } := by simp [pushOutgoing, setLink]
    have htask : (s.pushOutgoing j packet).linkTasks j = s.linkTasks j := rfl
    have hnow : (s.pushOutgoing j packet).now = s.now := rfl
    rw [linkLoad, linkLoad, linkWork, linkWork, hwork, hlink, htask, hnow, List.map_append, List.sum_append, List.map_singleton,
      List.sum_singleton]
    dsimp only
    omega
  have hsum := Progress.sum_range_le_of_ne (n := net.links.length) hne hself.le
  show _ + (∑ i ∈ Finset.range net.nodes.length, net.offerWork * (s.nodes i).outbound.length) ≤ _
  rw [workload]
  omega

theorem workload_pushCopies_le (net : InMemoryNetwork) (i : NodeIx) (packet : BufferedPacket) (candidates links : List LinkIx)
    (rolls : Nat → Roll × Roll) (s : State) :
    (pushCopies net i packet candidates links rolls s).workload net ≤
      s.workload net + links.length * (candidates.length + 5) := by
  induction links generalizing rolls s with
  | nil => exact Nat.le_add_right ..
  | cons j links ih =>
    have hrest := ih (fun k => rolls (k + 1)) (s.pushOutgoing j (outgoing net i packet candidates j (rolls 0)))
    have hfirst := workload_pushOutgoing_le net s j (outgoing net i packet candidates j (rolls 0))
    have hwork : packetWork (outgoing net i packet candidates j (rolls 0)) = candidates.length + 5 := rfl
    rw [pushCopies, List.length_cons, Nat.succ_mul]
    omega

theorem workload_outbound (net : InMemoryNetwork) (s s' : State) {i : NodeIx} (hi : i < net.nodes.length)
    (hnow : s'.now = s.now) (honeshots : s'.oneshots = s.oneshots) (hlinks : s'.links = s.links)
    (htasks : s'.linkTasks = s.linkTasks) (hne : ∀ i', i' ≠ i → (s'.nodes i').outbound = (s.nodes i').outbound) :
    s'.workload net + net.offerWork * (s.nodes i).outbound.length =
      s.workload net + net.offerWork * (s'.nodes i).outbound.length := by
  have hload : s'.linkLoad net = s.linkLoad net := by
    funext j
    rw [linkLoad, linkLoad, linkWork, linkWork, taskWork_congr honeshots, hlinks, htasks, hnow]
  have hsum := Progress.sum_range_of_ne (f := fun i' => net.offerWork * (s.nodes i').outbound.length)
    (g := fun i' => net.offerWork * (s'.nodes i').outbound.length) hi (fun i' hi' => by rw [hne i' hi'])
  rw [workload, workload, hload]
  omega

theorem workload_endNodeTask_le (net : InMemoryNetwork) (s : State) {i : NodeIx} (hi : i < net.nodes.length) (task : NodeTask) :
    (s.endNodeTask i task).workload net + net.offerWork * (s.nodes i).outbound.length ≤ s.workload net := by
  have heq := workload_outbound net s (s.endNodeTask i task) hi rfl rfl rfl rfl
    (fun i' hi' => by simp [endNodeTask, setNodeTask, setNode, hi'])
  have hnil : ((s.endNodeTask i task).nodes i).outbound = [] := by simp [endNodeTask, setNodeTask, setNode]
  rw [hnil, List.length_nil, Nat.mul_zero, Nat.add_zero] at heq
  exact heq.le

theorem workload_takeOutbound (net : InMemoryNetwork) (s : State) {i : NodeIx} (hi : i < net.nodes.length)
    {packet : BufferedPacket} {outbound : List BufferedPacket} (hnext : (s.nodes i).outbound = packet :: outbound) (links : List LinkIx) :
    (s.takeOutbound i packet outbound links).workload net + net.offerWork = s.workload net := by
  have heq := workload_outbound net s (s.takeOutbound i packet outbound links) hi rfl rfl rfl rfl
    (fun i' hi' => by simp [takeOutbound, observe, setNode, hi'])
  have hrest : ((s.takeOutbound i packet outbound links).nodes i).outbound = outbound := by
    simp [takeOutbound, observe, setNode]
  rw [hrest, hnext, List.length_cons, Nat.mul_succ] at heq
  omega

/-! ### What the tasks take away -/

/-- The copies of a packet are less work than the packet in the channel was. -/
theorem workload_processBufferForNode_lt {i : NodeIx} {rolls : Nat → Roll × Roll} (hi : i < net.nodes.length)
    (h : s.processBufferForNode net i rolls = some s') : s'.workload net < s.workload net := by
  rcases processBufferForNode_takes h with ⟨packet, outbound, -, hnext, htakes⟩
  have hpos : 0 < net.offerWork := by
    rw [InMemoryNetwork.offerWork]
    omega
  have hend : ∀ task, (s.endNodeTask i task).workload net < s.workload net := by
    intro task
    have hle := workload_endNodeTask_le net s hi task
    rw [hnext, List.length_cons, Nat.mul_succ] at hle
    omega
  have hpush : ∀ links done : List LinkIx, done.length ≤ links.length →
      net.candidateLinks (net.node i) packet.data.transmit.destination.ip = some links →
      (pushCopies net i packet links done rolls (s.takeOutbound i packet outbound links)).workload net < s.workload net := by
    intro links done hdone hlinks
    have htake := workload_takeOutbound net s hi hnext links
    have hcopies := workload_pushCopies_le net i packet links done rolls (s.takeOutbound i packet outbound links)
    have hfanout := InMemoryNetwork.length_candidateLinks_le hi hlinks
    have hmul : done.length * (links.length + 5) ≤ net.fanout * (net.fanout + 5) :=
      Nat.mul_le_mul (hdone.trans hfanout) (Nat.add_le_add_right hfanout 5)
    rw [InMemoryNetwork.offerWork] at htake
    omega
  cases htakes with
  | panic => exact hend _
  | unroutable => exact hend _
  | offer links hroute hlinks hall => exact hpush links links (Nat.le_refl _) hlinks
  | panicOffer links done rest j hroute hlinks hsplit hpanicked =>
    have hdone : done.length ≤ links.length := by
      rw [hsplit, List.length_append]
      exact Nat.le_add_right ..
    exact ((Nat.le_add_right ..).trans (workload_endNodeTask_le net _ hi _)).trans_lt (hpush links done hdone hlinks)

theorem workload_setInTransit {j : LinkIx} (hj : j < net.links.length) (s : State) (q : InboundQueue) (task : ForwarderTask) :
    ((s.setInTransit j q).setForwarder j task).workload net + net.arrivalWork * (s.links j).inTransit.queue.length =
      s.workload net + net.arrivalWork * q.queue.length := by
  have hwork : ((s.setInTransit j q).setForwarder j task).taskWork = s.taskWork := taskWork_congr rfl
  have hnow : ((s.setInTransit j q).setForwarder j task).now = s.now := rfl
  have htasks : ((s.setInTransit j q).setForwarder j task).linkTasks = s.linkTasks := rfl
  have hlink : ((s.setInTransit j q).setForwarder j task).links j = { s.links j with inTransit := q } := by
    simp [setInTransit, setForwarder, setLink]
  have hsum := Progress.sum_range_of_ne (f := s.linkLoad net) (g := ((s.setInTransit j q).setForwarder j task).linkLoad net) hj
    (fun j' hj' => by
      have hlink : ((s.setInTransit j q).setForwarder j task).links j' = s.links j' := by
        simp [setInTransit, setForwarder, setLink, hj']
      rw [linkLoad, linkLoad, linkWork, linkWork, hwork, hlink, htasks, hnow])
  have hself : ((s.setInTransit j q).setForwarder j task).linkLoad net j + net.arrivalWork * (s.links j).inTransit.queue.length =
      s.linkLoad net j + net.arrivalWork * q.queue.length := by
    rw [linkLoad, linkLoad, linkWork, linkWork, hwork, hlink, htasks, hnow]
    dsimp only
    omega
  have hnodes : ((s.setInTransit j q).setForwarder j task).nodes = s.nodes := rfl
  rw [workload, workload, hnodes]
  omega

theorem workload_forwardPackets_le {j : LinkIx} {draws : Nat → Draws} (hj : j < net.links.length)
    (h : s.forwardPacketsFromLinkToNode net j draws = some s') :
    s'.workload net + (if s.delivers j then 1 else 0) ≤ s.workload net := by
  unfold forwardPacketsFromLinkToNode at h
  cases htask : s.forwarders j with
  | panicked => simp [htask] at h
  | awaiting delivery =>
    have hdelivers : s.delivers j = (delivery.poll (s.links j).inTransit s.now j).1.isReady := by rw [delivers, htask]
    obtain ⟨batch, hperm, -, -, -, -, hresult⟩ := delivery.poll_takes (s.links j).inTransit s.now j
    rw [hdelivers]
    simp only [htask] at h
    clear hdelivers
    generalize delivery.poll (s.links j).inTransit s.now j = polled at h hperm hresult ⊢
    obtain ⟨result, delivery', q⟩ := polled
    have hlen : (s.links j).inTransit.queue.length = batch.length + q.queue.length := by
      rw [hperm.length_eq, List.length_append]
    rcases hresult with ⟨source, hpending, hbatch⟩ | ⟨hne, hready⟩
    · subst hpending hbatch
      obtain rfl := Option.some.inj h
      have heq := workload_setInTransit hj s q (.awaiting delivery')
      rw [hlen, List.length_nil, Nat.zero_add] at heq
      have hready : (DeliveryPoll.pending source).isReady = false := rfl
      rw [hready, if_neg Bool.false_ne_true]
      omega
    · obtain rfl : result = .ready (batch.map PrioritizedInTransitData.deliver) := hready
      have heq := workload_setInTransit hj s q (.awaiting (.new usizeMax))
      have hforward := workload_forwardDelivered_le net j (batch.map PrioritizedInTransitData.deliver) draws
        ((s.setInTransit j q).setForwarder j (.awaiting (.new usizeMax)))
      have hs' : s'.workload net = (settled (forwardDelivered net j (batch.map PrioritizedInTransitData.deliver) draws
          ((s.setInTransit j q).setForwarder j (.awaiting (.new usizeMax))))).workload net := by
        simp only at h
        split at h
        · rename_i hok
          obtain rfl := Option.some.inj h
          rw [hok, settled_ok]
        · rename_i herror
          obtain rfl := Option.some.inj h
          rw [herror, settled_error]
          exact workload_congr rfl rfl rfl rfl fun _ => rfl
      have hpos : 0 < batch.length := List.length_pos_of_ne_nil hne
      have hwork : batch.length * (2 * net.offerWork) + batch.length = net.arrivalWork * batch.length := by
        rw [InMemoryNetwork.arrivalWork]
        ring
      rw [hlen, Nat.mul_add] at heq
      rw [List.length_map] at hforward
      simp only [DeliveryPoll.isReady, if_true]
      omega

end State

/-- Every packet takes some time to send. -/
theorem PacketPacer.canSend_trackSend (pacer : PacketPacer) (now : Nat) {size : Nat} (hsize : 0 < size) :
    (pacer.trackSend now size).canSend now = false := by
  have hpos : 0 < sendDurationMs (size * 8) pacer.bandwidthBps := by
    rw [sendDurationMs]
    split_ifs with hzero hbits
    · omega
    · decide
    · exact Nat.div_pos (by omega) (by omega)
  show decide (now + sendDurationMs (size * 8) pacer.bandwidthBps * 1000000 ≤ now) = false
  rw [decide_eq_false_iff_not]
  omega

namespace State
variable {net : InMemoryNetwork} {s s' : State}

/-- A link that sends cannot send another packet at this instant. -/
theorem workload_linkEffect {j : LinkIx} (hj : j < net.links.length) (h : SleepsInv s) (he : LinkEffect net j s s') :
    s'.workload net + (if s.Waits j then 0 else 1) ≤ s.workload net := by
  rcases he.linkWork_cases h with ⟨hwaits, rfl⟩ | ⟨hgoes, hlt⟩
  · rw [if_pos hwaits]
    exact Nat.le_refl _
  have hne : ∀ j', j' ≠ j → s'.linkLoad net j' = s.linkLoad net j' := by
    intro j' hj'
    rw [linkLoad, linkLoad, he.linkWork_of_ne hj', he.inTransit_of_ne hj', he.frame.pacer j' hj', he.frame.now]
  have hself : s'.linkLoad net j < s.linkLoad net j := by
    rw [linkLoad, linkLoad, he.frame.now]
    rcases he.sends with ⟨p, slot, hsend⟩ | ⟨-, hpacer, hinTransit⟩
    · have hcan : (s'.links j).pacer.canSend s.now = false := by
        rw [hsend.pacer]
        exact PacketPacer.canSend_trackSend _ _ (OwnedTransmit.packetSize_pos _)
      have hlen : (s'.links j).inTransit.queue.length = (s.links j).inTransit.queue.length + 1 := by
        rw [hsend.inTransit]
        exact MaxHeap.length_push ..
      rw [hcan, hsend.paced, hlen, Nat.mul_succ, if_neg Bool.false_ne_true, if_pos rfl]
      omega
    · rw [hpacer, hinTransit]
      omega
  have hsum := Progress.sum_range_of_ne hj hne
  rw [if_neg hgoes, workload, workload]
  simp only [he.outbound]
  omega

/-! ### Polls -/

theorem AtRest.of_moves (h : ∀ a, s.moves net a = false) : AtRest net s where
  outbound i hi htask := by
    have hmoves := h (.nodeTask i HostPair.rolls)
    simpa [moves, hi, htask] using hmoves
  waits j hj := by
    have hmoves := h (.linkTask j 0)
    simpa [moves, hj] using hmoves
  delivers j hj := by
    have hmoves := h (.forwarder j fun _ => HostPair.draws 0)
    simpa [moves, hj] using hmoves

theorem exists_processBufferForNode {i : NodeIx} (htask : s.nodeTasks i = .running) (houtbound : (s.nodes i).outbound ≠ [])
    (net : InMemoryNetwork) (rolls : Nat → Roll × Roll) : ∃ s', s.processBufferForNode net i rolls = some s' := by
  rcases List.exists_cons_of_ne_nil houtbound with ⟨packet, outbound, hnext⟩
  unfold processBufferForNode
  rw [htask, hnext]
  dsimp only
  split
  · exact ⟨_, rfl⟩
  · exact ⟨_, rfl⟩
  · split
    · exact ⟨_, rfl⟩
    · split <;> exact ⟨_, rfl⟩

theorem exists_forwardPackets {j : LinkIx} (h : s.delivers j) (net : InMemoryNetwork) (draws : Nat → Draws) :
    ∃ s', s.forwardPacketsFromLinkToNode net j draws = some s' := by
  unfold delivers at h
  unfold forwardPacketsFromLinkToNode
  cases htask : s.forwarders j with
  | panicked => simp [htask] at h
  | awaiting delivery =>
    dsimp only
    split
    · exact ⟨_, rfl⟩
    · split <;> exact ⟨_, rfl⟩

/-- What gets a task further is a poll of it that can be made. -/
theorem exists_step_of_moves {a : Action} (h : s.moves net a) : a.isTask ∧ ∃ s', net.step s a = some s' := by
  cases a with
  | advance duration => simp [moves] at h
  | networkEvent => simp [moves] at h
  | trySend i transmit uuid draws => simp [moves] at h
  | pollRecv i metaLen => simp [moves] at h
  | nodeTask i rolls =>
    obtain ⟨⟨hi, htask⟩, houtbound⟩ : (i < net.nodes.length ∧ s.nodeTasks i = .running) ∧ (s.nodes i).outbound ≠ [] := by
      simpa [moves] using h
    rcases exists_processBufferForNode htask houtbound net rolls with ⟨s', hs'⟩
    exact ⟨rfl, s', by rw [InMemoryNetwork.step, if_pos hi, hs']⟩
  | linkTask j slot =>
    obtain ⟨hj, hgoes⟩ : j < net.links.length ∧ ¬ s.Waits j := by simpa [moves] using h
    rcases exists_processLinkQueue hgoes net slot with ⟨s', hs'⟩
    exact ⟨rfl, s', by rw [InMemoryNetwork.step, if_pos hj, hs']⟩
  | forwarder j draws =>
    obtain ⟨hj, hdelivers⟩ : j < net.links.length ∧ s.delivers j := by simpa [moves] using h
    rcases exists_forwardPackets hdelivers net draws with ⟨s', hs'⟩
    exact ⟨rfl, s', by rw [InMemoryNetwork.step, if_pos hj, hs']⟩

/-- Each poll that gets its task further lowers the workload, and no other poll raises it. -/
theorem workload_step {a : Action} (h : SleepsInv s) (htask : a.isTask) (hstep : net.step s a = some s') :
    s'.workload net + (if s.moves net a then 1 else 0) ≤ s.workload net := by
  cases a with
  | advance duration => simp [Action.isTask] at htask
  | networkEvent => simp [Action.isTask] at htask
  | trySend i transmit uuid draws => simp [Action.isTask] at htask
  | pollRecv i metaLen => simp [Action.isTask] at htask
  | nodeTask i rolls =>
    rw [InMemoryNetwork.step] at hstep
    split_ifs at hstep with hi
    have hlt := workload_processBufferForNode_lt hi hstep
    split_ifs <;> omega
  | linkTask j slot =>
    rw [InMemoryNetwork.step] at hstep
    split_ifs at hstep with hj
    have hle := workload_linkEffect hj h (processLinkQueue_effect hstep)
    have hmoves : s.moves net (.linkTask j slot) = !decide (s.Waits j) := by rw [moves, decide_eq_true hj, Bool.true_and]
    rw [hmoves]
    by_cases hwaits : s.Waits j
    · simpa [hwaits] using hle
    · simpa [hwaits] using hle
  | forwarder j draws =>
    rw [InMemoryNetwork.step] at hstep
    split_ifs at hstep with hj
    have hmoves : s.moves net (.forwarder j draws) = s.delivers j := by rw [moves, decide_eq_true hj, Bool.true_and]
    rw [hmoves]
    exact workload_forwardPackets_le hj hstep

theorem now_step {a : Action} (htask : a.isTask) (hstep : net.step s a = some s') : s'.now = s.now := by
  cases a with
  | advance duration => simp [Action.isTask] at htask
  | networkEvent => simp [Action.isTask] at htask
  | trySend i transmit uuid draws => simp [Action.isTask] at htask
  | pollRecv i metaLen => simp [Action.isTask] at htask
  | nodeTask i rolls =>
    rw [InMemoryNetwork.step] at hstep
    split_ifs at hstep
    exact (Stretches.processBufferForNode hstep).now
  | linkTask j slot =>
    rw [InMemoryNetwork.step] at hstep
    split_ifs at hstep
    exact (processLinkQueue_effect hstep).frame.now
  | forwarder j draws =>
    rw [InMemoryNetwork.step] at hstep
    split_ifs at hstep
    rcases exists_of_forwardPacketsFromLinkToNode hstep with ⟨q, ⟨delivery, rfl⟩ | ⟨delivered, result, hresult, hs'⟩⟩
    · rfl
    · rcases Stretches.forwardDelivered net j delivered draws
        ((s.setInTransit j q).setForwarder j (.awaiting (.new usizeMax))) with ⟨kinds, hs, -⟩
      rw [hresult] at hs
      rcases hs' with rfl | ⟨s₁, rfl, rfl⟩
      · exact hs.now
      · exact hs.now

/-- The states differ in the timers of forwarders and in the wakers registered with the queues, if at all. -/
def SameButTimers (s s' : State) : Prop :=
  ∃ (forwarders : LinkIx → ForwarderTask) (wakers : LinkIx → List Waker), s' = { s with
    forwarders
    links := fun j => { s.links j with inTransit := { (s.links j).inTransit with notifyNewTransmits := wakers j } } }

theorem SameButTimers.refl (s : State) : SameButTimers s s :=
  ⟨s.forwarders, fun j => (s.links j).inTransit.notifyNewTransmits, rfl⟩

theorem SameButTimers.trans {s'' : State} (h : SameButTimers s s') (h' : SameButTimers s' s'') : SameButTimers s s'' := by
  rcases h with ⟨_, _, rfl⟩
  rcases h' with ⟨forwarders, wakers, rfl⟩
  exact ⟨forwarders, wakers, rfl⟩

theorem SameButTimers.taken (s : State) (j : LinkIx) (wakers : List Waker) (delivery : NextPacketDelivery) :
    SameButTimers s ((s.setInTransit j { (s.links j).inTransit with notifyNewTransmits := wakers }).setForwarder j
      (.awaiting delivery)) := by
  refine ⟨Function.update s.forwarders j (.awaiting delivery),
    fun j' => if j' = j then wakers else (s.links j').inTransit.notifyNewTransmits, ?_⟩
  have hlinks : (s.setInTransit j { (s.links j).inTransit with notifyNewTransmits := wakers }).links = fun j' =>
      { s.links j' with inTransit := { (s.links j').inTransit with
        notifyNewTransmits := if j' = j then wakers else (s.links j').inTransit.notifyNewTransmits } } := by
    funext j'
    by_cases hj : j' = j
    · subst hj
      simp [setInTransit, setLink]
    · simp [setInTransit, setLink, hj]
  rw [← hlinks]
  rfl

theorem SameButTimers.waits (h : SameButTimers s s') (j : LinkIx) : s'.Waits j ↔ s.Waits j := by
  rcases h with ⟨_, _, rfl⟩
  exact Iff.rfl

theorem delivers_eq_false {j : LinkIx} {delivery : NextPacketDelivery} (htask : s.forwarders j = .awaiting delivery)
    (hmax : 0 < delivery.maxTransmits)
    (hidle : (∃ deadline, delivery.sleep = some deadline ∧ s.now < deadline) ∨ (s.links j).inTransit.queue = []) :
    s.delivers j = false := by
  have hpoll := NextPacketDelivery.poll_cases delivery (s.links j).inTransit s.now j hmax
  rw [delivers, htask]
  dsimp only
  generalize delivery.poll (s.links j).inTransit s.now j = polled at hpoll ⊢
  cases hpoll with
  | asleep deadline hsleep hlt => rfl
  | empty hawake hq => rfl
  | early hawake p hp hmin hlt => rfl
  | ready hawake batch rest sleep hne hdue htimer =>
    exfalso
    rcases hidle with ⟨deadline, hsleep, hlt⟩ | hnil
    · exact absurd (hawake deadline hsleep) (Nat.not_le.2 hlt)
    · have hperm := hdue.perm
      rw [hnil] at hperm
      exact hne (List.append_eq_nil_iff.1 hperm.symm.eq_nil).1

/-- At rest, a poll leaves everything as it is but a timer and a waker, and the tasks at rest. -/
theorem AtRest.step {a : Action} (hrest : AtRest net s) (hsleeps : SleepsInv s) (htimers : TimersInv s) (htask : a.isTask)
    (hstep : net.step s a = some s') : AtRest net s' ∧ SameButTimers s s' := by
  cases a with
  | advance duration => simp [Action.isTask] at htask
  | networkEvent => simp [Action.isTask] at htask
  | trySend i transmit uuid draws => simp [Action.isTask] at htask
  | pollRecv i metaLen => simp [Action.isTask] at htask
  | nodeTask i rolls =>
    rw [InMemoryNetwork.step] at hstep
    split_ifs at hstep with hi
    rcases processBufferForNode_takes hstep with ⟨packet, outbound, hrunning, hnext, -⟩
    simp [hrest.outbound i hi hrunning] at hnext
  | linkTask j slot =>
    rw [InMemoryNetwork.step] at hstep
    split_ifs at hstep with hj
    rcases (processLinkQueue_effect hstep).linkWork_cases hsleeps with ⟨-, rfl⟩ | ⟨hgoes, -⟩
    · exact ⟨hrest, .refl _⟩
    · exact absurd (hrest.waits j hj) hgoes
  | forwarder j draws =>
    rw [InMemoryNetwork.step] at hstep
    split_ifs at hstep with hj
    -- a poll after which the forwarder still has nothing to hand out
    have hidle : ∀ (wakers : List Waker) (delivery : NextPacketDelivery), 0 < delivery.maxTransmits →
        ((∃ deadline, delivery.sleep = some deadline ∧ s.now < deadline) ∨ (s.links j).inTransit.queue = []) →
        some ((s.setInTransit j { (s.links j).inTransit with notifyNewTransmits := wakers }).setForwarder j
          (.awaiting delivery)) = some s' → AtRest net s' ∧ SameButTimers s s' := by
      intro wakers delivery hmax hidle heq
      obtain rfl := Option.some.inj heq
      have hsame := SameButTimers.taken s j wakers delivery
      have hforwarder : ∀ j', j' ≠ j → ((s.setInTransit j { (s.links j).inTransit with notifyNewTransmits := wakers }).setForwarder j
          (.awaiting delivery)).forwarders j' = s.forwarders j' := by
        intro j' hjj
        simp [setForwarder, setInTransit, setLink, hjj]
      have hlink : ∀ j', j' ≠ j → ((s.setInTransit j { (s.links j).inTransit with notifyNewTransmits := wakers }).setForwarder j
          (.awaiting delivery)).links j' = s.links j' := by
        intro j' hjj
        simp [setForwarder, setInTransit, setLink, hjj]
      refine ⟨⟨hrest.outbound, fun j' hj' => (hsame.waits j').2 (hrest.waits j' hj'), fun j' hj' => ?_⟩, hsame⟩
      by_cases hjj : j' = j
      · subst hjj
        refine delivers_eq_false (by simp [setForwarder]) hmax ?_
        simpa [setForwarder, setInTransit, setLink] using hidle
      · rw [State.delivers, hforwarder j' hjj, hlink j' hjj]
        exact hrest.delivers j' hj'
    have hdelivers := hrest.delivers j hj
    unfold forwardPacketsFromLinkToNode at hstep
    cases htask : s.forwarders j with
    | panicked => simp [htask] at hstep
    | awaiting delivery =>
      have hmax := (htimers j delivery htask).1
      have hpoll := NextPacketDelivery.poll_cases delivery (s.links j).inTransit s.now j hmax
      have hdelivers : (delivery.poll (s.links j).inTransit s.now j).1.isReady = false := by
        rwa [State.delivers, htask] at hdelivers
      simp only [htask] at hstep
      generalize delivery.poll (s.links j).inTransit s.now j = polled at hstep hdelivers hpoll
      cases hpoll with
      | asleep deadline hsleep hlt =>
        exact hidle (s.links j).inTransit.notifyNewTransmits delivery hmax (.inl ⟨deadline, hsleep, hlt⟩) hstep
      | empty hawake hq => exact hidle _ { delivery with sleep := none } hmax (.inr hq) hstep
      | early hawake p hp hmin hlt =>
        exact hidle (s.links j).inTransit.notifyNewTransmits { delivery with sleep := some p.arrivalTime } hmax
          (.inl ⟨p.arrivalTime, rfl, hlt⟩) hstep
      | ready hawake batch rest sleep hne hdue htimer => exact Bool.noConfusion hdelivers

/-! ### Runs of the tasks -/

section
variable {spec : NetworkSpec} {events : List NetworkEvent} {disableTimeWarping : Bool}

/-- Whatever state the network is in, its tasks come to rest without any time passing, and however they are scheduled, only so
many of their polls get anything done before that; once at rest, their polls do nothing but set timers. -/
theorem settles_of_reaches (h : Reaches disableTimeWarping spec events net s) :
    (∀ as s', (∀ a ∈ as, a.isTask) → net.machine.run s as = some s' → net.machine.count (moves net) s as ≤ s.workload net) ∧
      ∃ as s', (∀ a ∈ as, a.isTask) ∧ net.machine.run s as = some s' ∧ s'.now = s.now ∧ AtRest net s' ∧
        ∀ bs s'', (∀ b ∈ bs, b.isTask) → net.machine.run s' bs = some s'' → AtRest net s'' ∧ SameButTimers s' s'' := by
  have hI : SleepsInv s ∧ TimersInv s := ⟨.reaches h, .reaches h⟩
  have hstep : ∀ {t a t'}, SleepsInv t ∧ TimersInv t → net.step t a = some t' → SleepsInv t' ∧ TimersInv t' :=
    fun ht hstep => ⟨(SleepsInv.preserved net).step hstep ht.1, ht.2.step hstep⟩
  refine ⟨fun as s' htasks hrun => ?_, ?_⟩
  · have hwork : ∀ t a t', SleepsInv t ∧ TimersInv t → a.isTask → net.machine.step t a = some t' →
        (SleepsInv t' ∧ TimersInv t') ∧ t'.workload net + (if t.moves net a then 1 else 0) ≤ t.workload net :=
      fun t a t' ht htask ha => ⟨hstep ht ha, workload_step ht.1 htask ha⟩
    have hcount := Machine.count_add_le hwork hI htasks hrun
    exact (Nat.le_add_right ..).trans hcount
  · have hmove : ∀ t a, (SleepsInv t ∧ TimersInv t) ∧ t.now = s.now → t.moves net a → a.isTask ∧
        ∃ t', net.step t a = some t' ∧ ((SleepsInv t' ∧ TimersInv t') ∧ t'.now = s.now) ∧ t'.workload net < t.workload net := by
      intro t a ht hmoves
      rcases exists_step_of_moves hmoves with ⟨htask, t', ha⟩
      have hle := workload_step ht.1.1 htask ha
      rw [if_pos hmoves] at hle
      exact ⟨htask, t', ha, ⟨hstep ht.1 ha, (now_step htask ha).trans ht.2⟩, hle⟩
    rcases Machine.exists_rest (M := net.machine) hmove ⟨hI, rfl⟩ with ⟨as, s', htasks, hrun, ⟨hI', hnow⟩, hmoves⟩
    have hrest : AtRest net s' := .of_moves hmoves
    refine ⟨as, s', htasks, hrun, hnow, hrest, fun bs s'' hbs hrun' => ?_⟩
    have hinv := Machine.run_invariant_of_forall (M := net.machine)
      (I := fun t => (SleepsInv t ∧ TimersInv t) ∧ AtRest net t ∧ SameButTimers s' t) (fun t b t' ht hb hbt => by
        rcases ht.2.1.step ht.1.1 ht.1.2 hb hbt with ⟨hrest', hsame⟩
        exact ⟨hstep ht.1 hbt, hrest', ht.2.2.trans hsame⟩) ⟨hI', hrest, .refl s'⟩ hbs hrun'
    exact hinv.2

end

/-- Three packets in the buffer of `A`, for two links. -/
theorem settles_hostPair : ∃ net s, Reaches false (hostPair 8000000 0) [] net s ∧ s.workload net = 312 ∧
    (∀ as s', (∀ a ∈ as, a.isTask) → net.machine.run s as = some s' → net.machine.count (moves net) s as ≤ s.workload net) ∧
      ∃ as s', (∀ a ∈ as, a.isTask) ∧ net.machine.run s as = some s' ∧ s'.now = s.now ∧ AtRest net s' ∧
        ∀ bs s'', (∀ b ∈ bs, b.isTask) → net.machine.run s' bs = some s'' → AtRest net s'' ∧ SameButTimers s' s'' := by
  obtain ⟨net, s, hreach, hs⟩ := exists_reaches_of_simulate (hostPair 8000000 0) []
    (HostPair.sendFromA 1 ++ HostPair.sendFromA 2 ++ HostPair.sendFromA 3) (fun net s => decide (s.workload net = 312))
    (by decide +kernel)
  exact ⟨net, s, hreach, of_decide_eq_true hs, settles_of_reaches hreach⟩

end State

end QuicWorkbench
