import QuicWorkbench.Proofs.Simulate
import QuicWorkbench.Proofs.Stays
import Mathlib.Algebra.BigOperators.Group.List.Basic
import Mathlib.Tactic.Ring

/-!
# The bytes of outbound buffers

`resident` are the packets that a node has accepted and that have since been neither sent nor dropped.
Acceptance reserves the bytes of a packet and `NetworkLink::send` gives them back, but dropping a packet
after a clear-buffer event does not. So what is missing from the capacity are the resident packets and
the cleared ones (`BufferInv.balance`).
-/

namespace QuicWorkbench

/-- The stays and packets that the node has accepted. -/
def acceptedAt (i : NodeIx) (history : List Observation) : List (Nat × InTransitData) :=
  history.filterMap fun o => o.accepts.bind fun (k, i', d) => if i' = i then some (k, d) else none

/-- The stay that ends with the packet sent or dropped. -/
def Observation.departs : Observation → Option Nat
  | .sent _ _ p | .cleared _ p => some p.stay
  | _ => none

def departedStays (history : List Observation) : List Nat := history.filterMap Observation.departs

/-- The packets that the node has accepted and that were neither sent nor dropped, with their stays. -/
def resident (i : NodeIx) (history : List Observation) : List (Nat × InTransitData) :=
  (acceptedAt i history).filter fun x => x.1 ∉ departedStays history

def bytes (packets : List (Nat × InTransitData)) : Nat := (packets.map fun x => x.2.packetSize).sum

/-- The size of the packet, if it was dropped by a clear-buffer event of the node. -/
def Observation.clearedAt (i : NodeIx) : Observation → Option Nat
  | .cleared _ p => if p.srcNode = i then some p.data.packetSize else none
  | _ => none

def clearedBytes (i : NodeIx) (history : List Observation) : Nat := (history.filterMap (Observation.clearedAt i)).sum

section
variable {h : List Observation} {o : Observation} {i : NodeIx} {k : Nat} {d : InTransitData}

theorem mem_acceptedAt : (k, d) ∈ acceptedAt i h ↔ .accepted k i d ∈ h := by
  simp only [acceptedAt, List.mem_filterMap]
  constructor
  · rintro ⟨o, ho, heq⟩
    cases o <;> simp [Observation.accepts] at heq
    obtain ⟨rfl, rfl, rfl⟩ := heq
    exact ho
  · intro ho
    exact ⟨_, ho, by simp [Observation.accepts]⟩

theorem acceptedAt_keys_sublist (i : NodeIx) (h : List Observation) :
    ((acceptedAt i h).map Prod.fst).Sublist (acceptedStays h) := by
  induction h with
  | nil => exact List.Sublist.refl _
  | cons o h ih =>
    cases o with
    | accepted k i' d =>
      by_cases hi : i' = i
      · simpa [acceptedAt, acceptedStays, Observation.accepts, hi] using ih
      · simpa [acceptedAt, acceptedStays, Observation.accepts, hi] using ih.cons k
    | offered | sent | sendPanicked | cleared | discarded =>
      simpa [acceptedAt, acceptedStays, Observation.accepts] using ih

theorem acceptedAt_keys_nodup (hnodup : (acceptedStays h).Nodup) (i : NodeIx) :
    ((acceptedAt i h).map Prod.fst).Nodup :=
  hnodup.sublist (acceptedAt_keys_sublist i h)

theorem departedStays_subset (h : List Observation) : ∀ k ∈ departedStays h, k ∈ handledStays h := by
  intro k hk
  obtain ⟨o, ho, heq⟩ := List.mem_filterMap.1 hk
  refine List.mem_filterMap.2 ⟨o, ho, ?_⟩
  cases o <;> simp [Observation.departs, Observation.handles] at heq ⊢ <;> exact heq

theorem resident_keys_nodup (hnodup : (acceptedStays h).Nodup) (i : NodeIx) :
    ((resident i h).map Prod.fst).Nodup :=
  (acceptedAt_keys_nodup hnodup i).sublist (List.filter_sublist.map _)

theorem bytes_filter_ne {packets : List (Nat × InTransitData)} (hnodup : (packets.map Prod.fst).Nodup)
    (hmem : (k, d) ∈ packets) : bytes (packets.filter fun x => x.1 ≠ k) + d.packetSize = bytes packets := by
  induction packets with
  | nil => simp at hmem
  | cons x packets ih =>
    rw [List.map_cons, List.nodup_cons] at hnodup
    rcases List.mem_cons.1 hmem with rfl | hmem
    · have hrest : packets.filter (fun x => x.1 ≠ k) = packets := List.filter_eq_self.2 fun y hy => by
        simp only [ne_eq, decide_eq_true_eq]
        intro heq
        exact hnodup.1 (List.mem_map.2 ⟨y, hy, heq⟩)
      rw [List.filter_cons_of_neg (by simp), hrest]
      simp [bytes, Nat.add_comm]
    · have hne : x.1 ≠ k := by
        rintro rfl
        exact hnodup.1 (List.mem_map.2 ⟨_, hmem, rfl⟩)
      rw [List.filter_cons_of_pos (by simpa using hne)]
      have := ih hnodup.2 hmem
      simp only [bytes, List.map_cons, List.sum_cons] at this ⊢
      omega

theorem filter_ne_of_not_mem {packets : List (Nat × InTransitData)} (h : ∀ d, (k, d) ∉ packets) :
    (packets.filter fun x => x.1 ≠ k) = packets :=
  List.filter_eq_self.2 fun x hx => by
    simp only [ne_eq, decide_eq_true_eq]
    rintro rfl
    exact h x.2 hx

theorem resident_accepted {i' : NodeIx} (hfresh : k ∉ departedStays h) :
    resident i (h ++ [.accepted k i' d]) = resident i h ++ if i' = i then [(k, d)] else [] := by
  by_cases hi : i' = i <;>
    simp [resident, acceptedAt, departedStays, Observation.accepts, Observation.departs, hi] at hfresh ⊢
  exact hfresh

theorem resident_departed (ho : o.departs = some k) :
    resident i (h ++ [o]) = (resident i h).filter fun x => x.1 ≠ k := by
  have hacc : acceptedAt i (h ++ [o]) = acceptedAt i h := by
    cases o <;> simp [acceptedAt, Observation.accepts, Observation.departs] at ho ⊢
  rw [resident, hacc, resident, List.filter_filter]
  refine List.filter_congr fun x hx => ?_
  simp [departedStays, ho, and_comm]

theorem resident_other (hacc : o.accepts = none) (hdep : o.departs = none) : resident i (h ++ [o]) = resident i h := by
  simp [resident, acceptedAt, departedStays, hacc, hdep]

theorem clearedBytes_snoc : clearedBytes i (h ++ [o]) = clearedBytes i h + (o.clearedAt i).getD 0 := by
  cases hc : o.clearedAt i <;> simp [clearedBytes, hc]

end

theorem StaysInv.nextStay_not_departed {net : InMemoryNetwork} {s : State} (h : StaysInv net s) :
    s.nextStay ∉ departedStays s.history := fun hk => by
  obtain ⟨links, hoff⟩ := mem_offeredStays.1 (h.handledOffered _ (departedStays_subset _ _ hk))
  obtain ⟨i, d, hacc, -⟩ := h.offered _ _ hoff
  exact Nat.lt_irrefl _ (h.acceptedLt _ (mem_acceptedStays.2 ⟨i, d, hacc⟩))

structure BufferInv (net : InMemoryNetwork) (s : State) : Prop where
  stays : StaysInv net s
  balance : ∀ i, (s.nodes i).outboundBuffer.availableCapacityBytes + bytes (resident i s.history) +
    clearedBytes i s.history = (net.node i).capacityBytes

namespace BufferInv
variable {net : InMemoryNetwork} {s s' : State}

theorem initial (net : InMemoryNetwork) (now : Nat) (events : List NetworkEvent) :
    BufferInv net (net.initialState now events) :=
  ⟨.initial net now events, fun i => by
    simp [InMemoryNetwork.initialState, NodeState.new, OutboundBuffer.new, bytes, resident, acceptedAt, clearedBytes]⟩

theorem frame (h : BufferInv net s) (hstays : StaysInv net s')
    (hbuffer : ∀ i, (s'.nodes i).outboundBuffer = (s.nodes i).outboundBuffer) (hhistory : s'.history = s.history) :
    BufferInv net s' :=
  ⟨hstays, fun i => by rw [hbuffer i, hhistory]; exact h.balance i⟩

theorem observe (h : BufferInv net s) (hstays : StaysInv net s') {o : Observation} (hacc : o.accepts = none)
    (hdep : o.departs = none) (hbuffer : ∀ i, (s'.nodes i).outboundBuffer = (s.nodes i).outboundBuffer)
    (hhistory : s'.history = s.history ++ [o]) : BufferInv net s' :=
  ⟨hstays, fun i => by
    have hclear : o.clearedAt i = none := by
      cases o <;> simp [Observation.clearedAt, Observation.departs] at hdep ⊢
    rw [hbuffer i, hhistory, resident_other hacc hdep, clearedBytes_snoc, hclear]
    exact h.balance i⟩

theorem accept (h : BufferInv net s) {i : NodeIx} {d : InTransitData} {buffer : OutboundBuffer}
    (hbuffer : (s.nodes i).outboundBuffer.reserve d.packetSize = some buffer) : BufferInv net (s.accept i buffer d) := by
  refine ⟨h.stays.accept i buffer d, fun i' => ?_⟩
  have hhist : (s.accept i buffer d).history = s.history ++ [.accepted s.nextStay i d] := rfl
  rw [hhist, resident_accepted h.stays.nextStay_not_departed, clearedBytes_snoc]
  have hbalance := h.balance i'
  by_cases hi : i' = i
  · subst hi
    have hnew : ((s.accept i' buffer d).nodes i').outboundBuffer = buffer := by
      simp [State.accept, State.observe, State.setNode]
    rw [hnew]
    unfold OutboundBuffer.reserve at hbuffer
    split_ifs at hbuffer with hlt
    obtain rfl := Option.some.inj hbuffer
    simp only [bytes, ↓reduceIte, List.map_append, List.sum_append, List.map_cons, List.map_nil, List.sum_cons,
      List.sum_nil, Observation.clearedAt, Option.getD_none] at hbalance ⊢
    omega
  · have hold : ((s.accept i buffer d).nodes i').outboundBuffer = (s.nodes i').outboundBuffer := by
      simp [State.accept, State.observe, State.setNode, hi]
    rw [hold, if_neg (Ne.symm hi), List.append_nil]
    exact hbalance

theorem stayEffect (h : BufferInv net s) (he : StayEffect net s s') : BufferInv net s' := by
  have hstays := h.stays.stayEffect he
  cases he with
  | accept i d buffer hbuffer htask =>
    refine (h.accept hbuffer).frame hstays (fun i' => ?_) rfl
    by_cases hi : i' = i <;> simp [State.pushOutbound, State.setNode, hi]
  | acceptInVain i d buffer hbuffer htask => exact h.accept hbuffer
  | offer i packet outbound links rolls htask hnext hlinks hall =>
    rw [State.pushCopies_eq] at hstays ⊢
    refine h.observe (o := .offered packet.stay links) hstays rfl rfl (fun i' => ?_) rfl
    by_cases hi : i' = i <;> simp [State.takeOutbound, State.observe, State.setNode, hi]
  | panicOffer i packet outbound links done rest j rolls htask hnext hlinks hsplit hpanicked =>
    rw [State.pushCopies_eq] at hstays ⊢
    refine h.observe (o := .offered packet.stay links) hstays rfl rfl (fun i' => ?_) rfl
    by_cases hi : i' = i <;>
      simp [State.takeOutbound, State.observe, State.endNodeTask, State.setNodeTask, State.setNode, hi]
  | endNodeTask i task htask hend =>
    refine h.frame hstays (fun i' => ?_) rfl
    by_cases hi : i' = i <;> simp [State.endNodeTask, State.setNodeTask, State.setNode, hi]

theorem mem_resident (h : BufferInv net s) {j : LinkIx} {p : OutgoingPacket} (hp : p ∈ s.copies j)
    (hun : s.handled p.stay = false) : (p.stay, p.data) ∈ resident p.srcNode s.history := by
  refine List.mem_filter.2 ⟨mem_acceptedAt.2 (h.stays.copy j p hp).1, decide_eq_true fun hk => ?_⟩
  rw [(h.stays.handled p.stay).2 (departedStays_subset _ _ hk)] at hun
  exact Bool.noConfusion hun

theorem not_mem_resident (h : BufferInv net s) {j : LinkIx} {p : OutgoingPacket} (hp : p ∈ s.copies j) {i : NodeIx}
    (hi : i ≠ p.srcNode) (d : InTransitData) : (p.stay, d) ∉ resident i s.history := fun hd =>
  hi (accepted_unique h.stays.acceptedNodup (h.stays.copy j p hp).1 (mem_acceptedAt.1 (List.mem_filter.1 hd).1)).1

/-- The end of a stay: what the buffer does not get back was cleared. -/
theorem depart (h : BufferInv net s) (hstays : StaysInv net s') {j : LinkIx} {p : OutgoingPacket} {o : Observation}
    (hp : p ∈ s.copies j) (hun : s.handled p.stay = false) (ho : o.departs = some p.stay)
    (hhistory : s'.history = s.history ++ [o])
    (hbuffer : ∀ i, (s'.nodes i).outboundBuffer.availableCapacityBytes + (o.clearedAt i).getD 0 =
      (s.nodes i).outboundBuffer.availableCapacityBytes + if i = p.srcNode then p.data.packetSize else 0) :
    BufferInv net s' := by
  refine ⟨hstays, fun i => ?_⟩
  rw [hhistory, resident_departed ho, clearedBytes_snoc]
  have hbalance := h.balance i
  have hbuffer := hbuffer i
  by_cases hi : i = p.srcNode
  · subst hi
    have := bytes_filter_ne (resident_keys_nodup h.stays.acceptedNodup _) (h.mem_resident hp hun)
    rw [if_pos rfl] at hbuffer
    omega
  · rw [filter_ne_of_not_mem (h.not_mem_resident hp hi)]
    rw [if_neg hi] at hbuffer
    omega

theorem linkEffect (h : BufferInv net s) {j : LinkIx} (he : LinkEffect net j s s') : BufferInv net s' := by
  have hstays := h.stays.linkEffect he
  cases he with
  | park p s₁ task hp =>
    obtain ⟨queue, rfl⟩ := hp.eq_dequeue
    exact h.frame hstays (fun i => rfl) rfl
  | discard p p' s₁ hp =>
    obtain ⟨queue, rfl⟩ := hp.eq_dequeue
    exact h.observe (o := .discarded j p') hstays rfl rfl (fun i => rfl) rfl
  | clear p p' s₁ hp hun =>
    have hcopy : p ∈ s.copies j := by rw [hp.copies]; exact List.mem_cons_self ..
    obtain ⟨links, rfl⟩ := hp.ready
    obtain ⟨queue, rfl⟩ := hp.eq_dequeue
    refine h.depart (o := .cleared j { p with preferredLinks := links }) hstays hcopy hun rfl rfl fun i => ?_
    by_cases hi : i = p.srcNode
    · simp [State.trackDroppedByBufferClearEvent, State.trackDropped, State.record, State.observe, State.setLinkTask,
        State.setHandled, State.dequeue, State.setLink, Observation.clearedAt, hi]
    · simp [State.trackDroppedByBufferClearEvent, State.trackDropped, State.record, State.observe, State.setLinkTask,
        State.setHandled, State.dequeue, State.setLink, Observation.clearedAt, hi, Ne.symm hi]
  | send p p' s₁ data slot hp hun hcleared hsane hdata =>
    have hcopy : p ∈ s.copies j := by rw [hp.copies]; exact List.mem_cons_self ..
    obtain ⟨links, rfl⟩ := hp.ready
    obtain ⟨queue, rfl⟩ := hp.eq_dequeue
    have hsize : data.packetSize = p.data.packetSize := packetSize_applyCongestion hdata
    refine h.depart (o := .sent s.now j { p with preferredLinks := links, data }) hstays hcopy hun rfl rfl fun i => ?_
    by_cases hi : i = p.srcNode
    · simp [State.transmit, State.setLinkTask, State.observe, State.setNode, State.setLink, State.setHandled,
        State.dequeue, State.trackPacketInTransit, State.record, OutboundBuffer.release, Observation.clearedAt, hi, hsize]
    · simp [State.transmit, State.setLinkTask, State.observe, State.setNode, State.setLink, State.setHandled,
        State.dequeue, State.trackPacketInTransit, State.record, Observation.clearedAt, hi]
  | panicSend p p' s₁ hp =>
    obtain ⟨queue, rfl⟩ := hp.eq_dequeue
    exact h.observe (o := .sendPanicked j p') hstays rfl rfl (fun i => rfl) rfl

theorem preserved (net : InMemoryNetwork) : Preserved net fun σ => BufferInv net σ.state where
  effect σ σ' he h := by
    rcases he.quiet_or_stay with hq | hs
    · exact h.frame (h.stays.quiet hq) hq.outboundBuffer hq.history
    · exact h.stayEffect hs
  link j s s' hj he h := h.linkEffect he
  linkEvent s event h :=
    have hf := s.processLinkEvent_frame net event
    h.frame (h.stays.event hf) hf.outboundBuffer hf.history
  nodeEvent s event h :=
    have hf := s.processNodeEvent_frame net event
    h.frame (h.stays.event hf) hf.outboundBuffer hf.history
  events s events h := { h with stays := { h.stays with } }

end BufferInv

theorem clearedBytes_eq_zero {i : NodeIx} {h : List Observation} :
    clearedBytes i h = 0 ↔ ∀ j p, .cleared j p ∈ h → p.srcNode ≠ i := by
  rw [clearedBytes, List.sum_eq_zero_iff_forall_eq_nat]
  constructor
  · intro hzero j p hp hi
    have hsize := hzero p.data.packetSize (List.mem_filterMap.2 ⟨_, hp, by simp [Observation.clearedAt, hi]⟩)
    exact absurd hsize (Nat.pos_iff_ne_zero.1 p.data.transmit.packetSize_pos)
  · intro hall n hn
    obtain ⟨o, ho, heq⟩ := List.mem_filterMap.1 hn
    cases o <;> simp [Observation.clearedAt] at heq
    exact absurd heq.1 (hall _ _ ho)

/-- What is reserved. -/
def State.reservedBytes (net : InMemoryNetwork) (s : State) (i : NodeIx) : Nat :=
  (net.node i).capacityBytes - (s.nodes i).outboundBuffer.availableCapacityBytes

/-- A clear-buffer event after the packet was accepted: the packet is dropped, and its bytes stay
reserved. -/
theorem cleared_bytes_stay_reserved : ∃ net s, Reaches false (hostPair 8000000 0)
    [HostPair.nodeEvent 1 "A" none true] net s ∧ s.reservedBytes net 0 = 128 ∧ bytes (resident 0 s.history) = 0 := by
  obtain ⟨net, s, hreach, hs⟩ := exists_reaches_of_simulate (hostPair 8000000 0) [HostPair.nodeEvent 1 "A" none true]
    (HostPair.sendFromA 1 ++ [.advance 1, .networkEvent, .linkTask 0 0])
    (fun net s => s.reservedBytes net 0 = 128 ∧ bytes (resident 0 s.history) = 0) (by decide +kernel)
  exact ⟨net, s, hreach, of_decide_eq_true hs⟩

/-- In every state reached, the bytes that a node has reserved are those of its resident packets exactly
as long as no packet of the node was dropped by a clear-buffer event. -/
theorem reservedBytes_eq_iff {disableTimeWarping : Bool} {spec : NetworkSpec} {events : List NetworkEvent}
    {net : InMemoryNetwork} {s : State} (h : Reaches disableTimeWarping spec events net s) (i : NodeIx) :
    (s.nodes i).outboundBuffer.availableCapacityBytes ≤ (net.node i).capacityBytes ∧
      (s.reservedBytes net i = bytes (resident i s.history) ↔ ∀ j p, .cleared j p ∈ s.history → p.srcNode ≠ i) := by
  have hI : BufferInv net s := (BufferInv.preserved net).reaches (fun now events _ => .initial net now events) h
  have hbalance := hI.balance i
  refine ⟨by omega, ?_⟩
  rw [← clearedBytes_eq_zero, State.reservedBytes]
  omega

/-- A packet in the buffer of `A`, and no event. -/
theorem reservedBytes_eq_hostPair : ∃ net s, Reaches false (hostPair 8000000 0) [] net s ∧
    bytes (resident 0 s.history) = 128 ∧ s.reservedBytes net 0 = 128 := by
  obtain ⟨net, s, hreach, hs⟩ := exists_reaches_of_simulate (hostPair 8000000 0) [] (HostPair.sendFromA 1)
    (fun _ s => bytes (resident 0 s.history) = 128 ∧ ∀ o ∈ s.history, o.departs = none) (by decide +kernel)
  obtain ⟨hbytes, hnone⟩ := of_decide_eq_true hs
  refine ⟨net, s, hreach, hbytes, ?_⟩
  rw [((reservedBytes_eq_iff hreach 0).2).2 fun j p hp => by simpa [Observation.departs] using hnone _ hp]
  exact hbytes

end QuicWorkbench
