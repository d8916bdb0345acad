import QuicWorkbench.Proofs.Custody
import QuicWorkbench.Proofs.Fifo
import QuicWorkbench.Proofs.Lifecycle
import QuicWorkbench.Proofs.Provenance

/-!
# No packet vanishes

The network drops packets on purpose only, and puts it down in the log. As long as none of its tasks has ended, and hosts
read with slots for all that they take, each packet that was created is somewhere (in the buffer of a node, on a link, or
at a host), unless the log tells how it ended.
-/

namespace QuicWorkbench

/-- The packet that the step is the last one of. -/
def SimulationStepKind.ends : SimulationStepKind → Option Uuid
  | .packetInNode s => if s.droppedOnArrival then some s.packetId else none
  | .packetDropped s => some s.packetId
  | .packetLostInTransit s => some s.packetId
  | .packetDeliveredToApplication s => some s.packetId
  | .packetDuplicated _ | .packetExtraDelay _ | .packetCongestionEvent _ | .packetInTransit _ | .networkEvent _ => none

/-- The log tells how the packet ended. -/
def Ended (log : List SimulationStep) (id : Uuid) : Prop := ∃ step ∈ log, step.kind.ends = some id

/-- None of the tasks has ended. -/
structure Alive (net : InMemoryNetwork) (s : State) : Prop where
  nodeTasks : ∀ i < net.nodes.length, s.nodeTasks i = .running
  linkTasks : ∀ j < net.links.length, s.linkTasks j ≠ .panicked
  forwarders : ∀ j < net.links.length, (s.forwarders j).hasPanicked = false

instance (net : InMemoryNetwork) (s : State) : Decidable (Alive net s) :=
  decidable_of_iff ((∀ i < net.nodes.length, s.nodeTasks i = .running) ∧ (∀ j < net.links.length, s.linkTasks j ≠ .panicked) ∧
    ∀ j < net.links.length, (s.forwarders j).hasPanicked = false) ⟨fun h => ⟨h.1, h.2.1, h.2.2⟩, fun h => ⟨h.1, h.2, h.3⟩⟩

namespace State

/-- The packet waits somewhere in the network, or its end is on record. -/
def AccountsFor (s : State) (id : Uuid) : Prop :=
  (∃ p d, Scene.At ⟨[], s⟩ false p d ∧ d.id = id) ∨ Ended s.log id

/-- The stays that are over have numbers that are not given again. -/
def FreshStay (s : State) : Prop := ∀ k ∈ handledStays s.history, k < s.nextStay

/-- Each packet stays where it is, or is accounted for otherwise. -/
theorem accountsFor_of_moved {s s' : State} {id : Uuid} (hlog : s.log ⊆ s'.log)
    (hinTransit : ∀ j, ∀ e ∈ (s.links j).inTransit.queue, e ∈ (s'.links j).inTransit.queue ∨ s'.AccountsFor e.data.id)
    (hinbound : ∀ i, ∀ e ∈ (s.nodes i).inbound.queue, e ∈ (s'.nodes i).inbound.queue ∨ s'.AccountsFor e.data.id)
    (hstay : ∀ k i d, .accepted k i d ∈ s.history → k ∉ handledStays s.history →
      (.accepted k i d ∈ s'.history ∧ k ∉ handledStays s'.history) ∨ s'.AccountsFor d.id)
    (hid : s.AccountsFor id) : s'.AccountsFor id := by
  rcases hid with ⟨p, d, hd, rfl⟩ | ⟨step, hstep, hends⟩
  · cases hd with
    | inTransit he =>
      rcases hinTransit _ _ he with he | haccounts
      · exact .inl ⟨_, _, .inTransit he, rfl⟩
      · exact haccounts
    | inbound he =>
      rcases hinbound _ _ he with he | haccounts
      · exact .inl ⟨_, _, .inbound he, rfl⟩
      · exact haccounts
    | stay hacc hun =>
      rcases hstay _ _ _ hacc hun with ⟨hacc, hun⟩ | haccounts
      · exact .inl ⟨_, _, .stay hacc hun, rfl⟩
      · exact haccounts
  · exact .inr ⟨step, hlog hstep, hends⟩

/-- No packet goes away. -/
structure Onward (s s' : State) : Prop where
  log : s.log ⊆ s'.log
  accepted : ∀ k i d, .accepted k i d ∈ s.history → .accepted k i d ∈ s'.history
  handled : handledStays s'.history ⊆ handledStays s.history
  inTransit : ∀ j, (s.links j).inTransit.queue ⊆ (s'.links j).inTransit.queue
  inbound : ∀ i, (s.nodes i).inbound.queue ⊆ (s'.nodes i).inbound.queue
  nextStay : s.nextStay ≤ s'.nextStay

namespace Onward
variable {net : InMemoryNetwork} {s s' s'' : State} {id : Uuid}

theorem trans (h : Onward s s') (h' : Onward s' s'') : Onward s s'' where
  log := List.Subset.trans h.log h'.log
  accepted k i d hacc := h'.accepted k i d (h.accepted k i d hacc)
  handled := List.Subset.trans h'.handled h.handled
  inTransit j := List.Subset.trans (h.inTransit j) (h'.inTransit j)
  inbound i := List.Subset.trans (h.inbound i) (h'.inbound i)
  nextStay := h.nextStay.trans h'.nextStay

theorem of_eq (hlog : s.log ⊆ s'.log) (hnodes : ∀ i, (s'.nodes i).inbound = (s.nodes i).inbound)
    (hlinks : ∀ j, (s'.links j).inTransit = (s.links j).inTransit) (hhistory : s'.history = s.history)
    (hnext : s'.nextStay = s.nextStay) : Onward s s' where
  log := hlog
  accepted k i d hacc := hhistory ▸ hacc
  handled := hhistory ▸ List.Subset.refl _
  inTransit j := by rw [hlinks]; exact List.Subset.refl _
  inbound i := by rw [hnodes]; exact List.Subset.refl _
  nextStay := hnext.ge

theorem refl (s : State) : Onward s s := of_eq (List.Subset.refl _) (fun _ => rfl) (fun _ => rfl) rfl rfl

theorem record (net : InMemoryNetwork) (s : State) (kind : SimulationStepKind) : Onward s (s.record net kind) :=
  of_eq (List.subset_append_left ..) (fun _ => rfl) (fun _ => rfl) rfl rfl

theorem freshStay (h : Onward s s') (hfresh : s.FreshStay) : s'.FreshStay := fun k hk =>
  (hfresh k (h.handled hk)).trans_le h.nextStay

theorem accountsFor (h : Onward s s') (hid : s.AccountsFor id) : s'.AccountsFor id :=
  accountsFor_of_moved h.log (fun j _ he => .inl (h.inTransit j he)) (fun i _ he => .inl (h.inbound i he))
    (fun k i d hacc hun => .inl ⟨h.accepted k i d hacc, fun hk => hun (h.handled hk)⟩) hid

end Onward

/-! ### Forwarding -/

section
variable {net : InMemoryNetwork} {s s' : State} {i : NodeIx} {d : InTransitData} {t : Nat} {id : Uuid}

theorem accountsFor_record (s : State) {kind : SimulationStepKind} (hkind : kind.ends = some id) :
    (s.record net kind).AccountsFor id :=
  .inr ⟨_, List.mem_append_right _ (List.mem_singleton_self _), hkind⟩

theorem onward_enqueueOutbound (hfresh : s.FreshStay) (h : s.enqueueOutbound net i t d = .ok s') :
    Onward s s' ∧ s'.AccountsFor d.id ∧ s'.generated = s.generated := by
  unfold enqueueOutbound at h
  cases hreserve : (s.nodes i).outboundBuffer.reserve d.packetSize with
  | none =>
    rw [hreserve] at h
    obtain rfl := Except.ok.inj h
    exact ⟨.record net s _, accountsFor_record s rfl, rfl⟩
  | some buffer =>
    rw [hreserve] at h
    dsimp only at h
    split_ifs at h
    obtain rfl := Except.ok.inj h
    have hhistory : ((s.accept i buffer d).pushOutbound i { inNodeSince := t, data := d, stay := s.nextStay }).history =
      s.history ++ [.accepted s.nextStay i d] := rfl
    have hhandled : handledStays ((s.accept i buffer d).pushOutbound i
        { inNodeSince := t, data := d, stay := s.nextStay }).history = handledStays s.history := by
      rw [hhistory, handledStays_snoc]
      exact List.append_nil _
    refine ⟨?_, .inl ⟨.stay s.nextStay i, d, .stay ?_ ?_, rfl⟩, rfl⟩
    · constructor
      case log => exact List.Subset.refl _
      case accepted =>
        intro k i' d' hacc
        rw [hhistory]
        exact List.mem_append_left _ hacc
      case handled => exact hhandled ▸ List.Subset.refl _
      case inTransit => exact fun j => List.Subset.refl _
      case inbound =>
        intro i'
        have hinbound : (((s.accept i buffer d).pushOutbound i { inNodeSince := t, data := d, stay := s.nextStay }).nodes
            i').inbound = (s.nodes i').inbound := by
          by_cases hi : i' = i <;> simp [accept, pushOutbound, observe, setNode, hi]
        rw [hinbound]
        exact List.Subset.refl _
      case nextStay => exact Nat.le_succ _
    · rw [hhistory]
      exact List.mem_append_right _ (List.mem_singleton_self _)
    · intro hk
      rw [hhandled] at hk
      exact Nat.lt_irrefl _ (hfresh _ hk)

theorem onward_forward {draws : Draws} (hfresh : s.FreshStay) (h : s.forward net i d draws = .ok s') :
    Onward s s' ∧ s'.AccountsFor d.id ∧ ∀ id ∈ s'.generated, id ∈ s.generated ∨ s'.AccountsFor id := by
  unfold forward at h
  by_cases hdown : (s.nodes i).isDown
  · rw [if_pos hdown] at h
    obtain rfl := Except.ok.inj h
    exact ⟨.record net s _, accountsFor_record s rfl, fun id hid => .inl hid⟩
  rw [if_neg hdown] at h
  have hin : Onward s (s.trackPacketInNode net i d) := .record net s _
  dsimp only at h
  split_ifs at h
  · obtain rfl := Except.ok.inj h
    have hpush := MaxHeap.push_perm draws.slot ⟨d, s.now, 0⟩ (s.nodes i).inbound.queue
    have hqueue : (((s.trackPacketInNode net i d).sendInbound i d draws.slot).nodes i).inbound.queue =
        MaxHeap.push draws.slot ⟨d, s.now, 0⟩ (s.nodes i).inbound.queue := by
      simp [sendInbound, setNode, InboundQueue.send, trackPacketInNode, State.record]
    refine ⟨{ hin with inbound := fun i' => ?_ }, .inl ⟨.inbound i, d, .inbound (e := ⟨d, s.now, 0⟩) ?_, rfl⟩,
      fun id hid => .inl hid⟩
    · by_cases hi : i' = i
      · subst hi
        rw [hqueue]
        exact fun x hx => hpush.symm.subset (List.mem_cons_of_mem _ hx)
      · have hsame : (((s.trackPacketInNode net i d).sendInbound i d draws.slot).nodes i') = s.nodes i' := by
          simp [sendInbound, setNode, trackPacketInNode, State.record, hi]
        rw [hsame]
        exact List.Subset.refl _
    · show _ ∈ (((s.trackPacketInNode net i d).sendInbound i d draws.slot).nodes i).inbound.queue
      rw [hqueue]
      exact hpush.symm.subset (List.mem_cons_self ..)
  · obtain rfl := Except.ok.inj h
    exact ⟨hin.trans (.record net _ _), accountsFor_record _ rfl, fun id hid => .inl hid⟩
  · obtain ⟨s₁, hfirst, hsecond⟩ := Except.bind_eq_ok.1 h
    have hnew : Onward s ((s.trackPacketInNode net i d).newPacketId draws.uuid) :=
      hin.trans (.of_eq (List.Subset.refl _) (fun _ => rfl) (fun _ => rfl) rfl rfl)
    rcases onward_enqueueOutbound (hnew.freshStay hfresh) hfirst with ⟨honward, hd, hgenerated⟩
    rw [trackInjectedFailures_duplicate] at hsecond
    have hdup := honward.trans (.record net s₁ (.packetDuplicated (genericPacketEvent net i
      { d with id := draws.uuid, duplicate := true })))
    rcases onward_enqueueOutbound ((hnew.trans hdup).freshStay hfresh) hsecond with ⟨honward', hd', hgenerated'⟩
    refine ⟨(hnew.trans hdup).trans honward', (Onward.trans (.record net s₁ _) honward').accountsFor hd, fun id hid => ?_⟩
    have hmem : id ∈ s.generated ++ [draws.uuid] := by
      rw [hgenerated'] at hid
      have hid : id ∈ s₁.generated := hid
      rwa [hgenerated] at hid
    rcases List.mem_append.1 hmem with hmem | hmem
    · exact .inl hmem
    · rw [List.mem_singleton.1 hmem]
      exact .inr hd'
  · rcases onward_enqueueOutbound (hin.freshStay hfresh) h with ⟨honward, hd, hgenerated⟩
    exact ⟨hin.trans honward, hd, fun id hid => .inl (hgenerated ▸ hid)⟩

theorem onward_forwardDelivered {j : LinkIx} (delivered : List DeliveredTransmit) {draws : Nat → Draws} (hfresh : s.FreshStay)
    (h : forwardDelivered net j delivered draws s = .ok s') :
    Onward s s' ∧ (∀ x ∈ delivered, s'.AccountsFor x.data.id) ∧
      ∀ id ∈ s'.generated, id ∈ s.generated ∨ s'.AccountsFor id := by
  induction delivered generalizing s draws with
  | nil =>
    obtain rfl := Except.ok.inj h
    exact ⟨.refl s, by simp, fun id hid => .inl hid⟩
  | cons x delivered ih =>
    -- what the first packet comes to, the others do not change
    have hgo : ∀ s₁ : State, Onward s s₁ → s₁.AccountsFor x.data.id →
        (∀ id ∈ s₁.generated, id ∈ s.generated ∨ s₁.AccountsFor id) →
        forwardDelivered net j delivered (fun k => draws (k + 1)) s₁ = .ok s' →
        Onward s s' ∧ (∀ y ∈ x :: delivered, s'.AccountsFor y.data.id) ∧
          ∀ id ∈ s'.generated, id ∈ s.generated ∨ s'.AccountsFor id := by
      intro s₁ hfirst hx hgenerated hrest
      rcases ih (hfirst.freshStay hfresh) hrest with ⟨honward, hall, hgenerated'⟩
      refine ⟨hfirst.trans honward, List.forall_mem_cons.2 ⟨honward.accountsFor hx, hall⟩, fun id hid => ?_⟩
      rcases hgenerated' id hid with hid | hid
      · rcases hgenerated id hid with hid | hid
        · exact .inl hid
        · exact .inr (honward.accountsFor hid)
      · exact .inr hid
    rw [forwardDelivered] at h
    split_ifs at h
    · exact hgo _ (.record net s _) (accountsFor_record s rfl) (fun id hid => .inl hid) h
    · cases htarget : net.nodesByAddr.lookup (net.link j).target with
      | none => simp [htarget] at h
      | some i =>
        rw [htarget] at h
        obtain ⟨s₁, hfirst, hrest⟩ := Except.bind_eq_ok.1 h
        rcases onward_forward hfresh hfirst with ⟨honward, hx, hgenerated⟩
        exact hgo s₁ honward hx hgenerated hrest

/-! ### Steps -/

theorem inTransit_dequeue (s : State) (j : LinkIx) (queue : List OutgoingPacket) (j' : LinkIx) :
    ((s.dequeue j queue).links j').inTransit = (s.links j').inTransit := by
  by_cases hj : j' = j <;> simp [dequeue, setLink, hj]

theorem accountsFor_linkEffect {j : LinkIx} (hstays : StaysInv net s) (he : LinkEffect net j s s')
    (halive : s'.linkTasks j ≠ .panicked) (hid : s.AccountsFor id) : s'.AccountsFor id := by
  -- the stay of the packet is over, and all others go on
  have hdepart : ∀ {p : OutgoingPacket} {o : Observation}, p ∈ s.copies j → o.handles = some p.stay →
      s'.history = s.history ++ [o] → s.log ⊆ s'.log →
      (∀ j', (s.links j').inTransit.queue ⊆ (s'.links j').inTransit.queue) → s'.AccountsFor p.data.id → s'.AccountsFor id := by
    intro p o hp ho hhistory hlog hinTransit haccounts
    refine accountsFor_of_moved hlog (fun j' e he => .inl (hinTransit j' he))
      (fun i e hmem => .inl (by rw [he.inbound]; exact hmem)) (fun k i d hacc hun => ?_) hid
    by_cases hk : k = p.stay
    · subst hk
      obtain ⟨-, rfl⟩ := accepted_unique hstays.acceptedNodup hacc (hstays.copy j p hp).1
      exact .inr haccounts
    · left
      rw [hhistory, handledStays_snoc, ho]
      refine ⟨List.mem_append_left _ hacc, fun hmem => ?_⟩
      rcases List.mem_append.1 hmem with hmem | hmem
      · exact hun hmem
      · exact hk (by simpa using hmem)
  have hsent : ∀ {p : OutgoingPacket} {slot : Nat}, SendFrame net j p slot s s' → s'.AccountsFor id := by
    intro p slot hsend
    obtain ⟨c, hcopies, hstay, -, hsame, -⟩ := hsend.copy
    have hpush := MaxHeap.push_perm slot ⟨p.data, s.now, (net.link j).delay + p.anomalies.extraDelay⟩
      (s.links j).inTransit.queue
    have hqueue : (s'.links j).inTransit.queue = MaxHeap.push slot ⟨p.data, s.now, (net.link j).delay + p.anomalies.extraDelay⟩
        (s.links j).inTransit.queue := congrArg InboundQueue.queue hsend.inTransit
    refine hdepart (p := c) (o := .sent s.now j p) (hcopies ▸ List.mem_cons_self ..) (congrArg some hstay.symm)
      hsend.history he.logs.grows.subset
      (fun j' e hmem => ?_) (.inl ⟨_, _, .inTransit (j := j) (hqueue ▸ hpush.symm.subset (List.mem_cons_self ..)), hsame.symm⟩)
    by_cases hj : j' = j
    · subst hj
      exact hqueue ▸ hpush.symm.subset (List.mem_cons_of_mem _ hmem)
    · exact (he.inTransit_of_ne hj).symm ▸ hmem
  have hsends := he.sends
  have hcopy : ∀ {p : OutgoingPacket} {s₁ : State} {m : Move}, Picks j s p s₁ m → p ∈ s.copies j := by
    intro p s₁ m hp
    rw [hp.copies]
    exact List.mem_cons_self ..
  cases he with
  | park p s₁ task hp =>
    obtain ⟨queue, rfl⟩ := hp.eq_dequeue
    have honward : Onward s ((s.dequeue j queue).setLinkTask j task) :=
      .of_eq (List.Subset.refl _) (fun _ => rfl) (inTransit_dequeue s j queue) rfl rfl
    exact honward.accountsFor hid
  | discard p p' s₁ hp =>
    obtain ⟨queue, rfl⟩ := hp.eq_dequeue
    have hhandled : handledStays (s.history ++ [.discarded j p']) = handledStays s.history := by
      rw [handledStays_snoc]
      exact List.append_nil _
    have honward : Onward s (((s.dequeue j queue).observe (.discarded j p')).setLinkTask j .next) :=
      { log := List.Subset.refl _
        accepted := fun k i d hacc => List.mem_append_left _ hacc
        handled := fun k hk => hhandled ▸ hk
        inTransit := fun j' e he => (inTransit_dequeue s j queue j').symm ▸ he
        inbound := fun i => List.Subset.refl _
        nextStay := Nat.le_refl _ }
    exact honward.accountsFor hid
  | clear p p' s₁ hp =>
    have hmem := hcopy hp
    obtain ⟨links, rfl⟩ := hp.ready
    obtain ⟨queue, rfl⟩ := hp.eq_dequeue
    exact hdepart (o := .cleared j { p with preferredLinks := links }) hmem rfl rfl (List.subset_append_left ..)
      (fun j' e he => (inTransit_dequeue s j queue j').symm ▸ he)
      (.inr ⟨_, List.mem_append_right _ (List.mem_singleton_self _), rfl⟩)
  | send p p' s₁ data slot hp =>
    rcases hsends with ⟨p, slot, hsend⟩ | ⟨hobserves, -⟩
    · exact hsent hsend
    · obtain ⟨queue, rfl⟩ := hp.eq_dequeue
      rcases hobserves with heq | ⟨o, ho, -, -, heq⟩
      · have heq : s.history ++ [.sent s.now j { p' with data }] = s.history := heq
        simp at heq
      · have heq : s.history ++ [.sent s.now j { p' with data }] = s.history ++ [o] := heq
        rw [← List.singleton_inj.1 (List.append_cancel_left heq)] at ho
        exact Bool.noConfusion ho
  | panicSend p p' s₁ hp => exact absurd (by simp [panicLinkTask, setLinkTask]) halive

theorem accountsFor_pollRecv {metaLen : Nat} (hslots : ∀ delivery ∈ s.sockets i, delivery.maxTransmits ≤ metaLen)
    (h : s.pollRecv net i metaLen = some s') (hid : s.AccountsFor id) : s'.AccountsFor id := by
  unfold pollRecv at h
  split at h
  · simp at h
  dsimp only at h
  obtain ⟨batch, hperm, -, hlen, -, -, hresult⟩ := ((s.sockets i).getD (.new metaLen)).poll_takes (s.nodes i).inbound s.now i
  have hmax : ((s.sockets i).getD (.new metaLen)).maxTransmits ≤ metaLen := by
    cases hsocket : s.sockets i with
    | none => exact Nat.le_refl _
    | some delivery => exact hslots delivery hsocket
  -- what the poll takes out of the queue is read
  have hgo : ∀ (q : InboundQueue) (delivery : NextPacketDelivery), (s.nodes i).inbound.queue.Perm (batch ++ q.queue) →
      s' = { s.setNode i { s.nodes i with inbound := q } with
        sockets := Function.update s.sockets i (some delivery)
        log := s.log ++ (batch.map PrioritizedInTransitData.deliver).map fun x =>
          ⟨s.now - net.simulationStart, .packetDeliveredToApplication (genericPacketEvent net i x.data)⟩ } →
      s'.AccountsFor id := by
    rintro q delivery hperm rfl
    refine accountsFor_of_moved (List.subset_append_left ..) (fun _ e he => .inl he) (fun i' e he => ?_)
      (fun k i' d hacc hun => .inl ⟨hacc, hun⟩) hid
    by_cases hi : i' = i
    · subst hi
      rcases List.mem_append.1 (hperm.subset he) with he | he
      · refine .inr (.inr ⟨_, List.mem_append_right _ (List.mem_map_of_mem (List.mem_map_of_mem he)), rfl⟩)
      · left
        simpa [setNode] using he
    · left
      simpa [setNode, hi] using he
  generalize ((s.sockets i).getD (.new metaLen)).poll (s.nodes i).inbound s.now i = polled at h hperm hresult
  obtain ⟨result, delivery, q⟩ := polled
  rcases hresult with ⟨source, hpending, rfl⟩ | ⟨-, hready⟩
  · obtain rfl : result = .pending source := hpending
    exact hgo q delivery hperm (by rw [← Option.some.inj h]; simp [setNode])
  · obtain rfl : result = .ready (batch.map PrioritizedInTransitData.deliver) := hready
    refine hgo q delivery hperm ?_
    rw [← Option.some.inj h, foldl_trackReadByHost, List.take_of_length_le (by rw [List.length_map]; omega)]
    rfl

theorem accountsFor_forwardPackets {j : LinkIx} {draws : Nat → Draws} (hfresh : s.FreshStay)
    (h : s.forwardPacketsFromLinkToNode net j draws = some s') (halive : (s'.forwarders j).hasPanicked = false) :
    (∀ id, s.AccountsFor id → s'.AccountsFor id) ∧ ∀ id ∈ s'.generated, id ∈ s.generated ∨ s'.AccountsFor id := by
  unfold forwardPacketsFromLinkToNode at h
  cases htask : s.forwarders j with
  | panicked => simp [htask] at h
  | awaiting delivery =>
    obtain ⟨batch, hperm, -, -, -, -, hresult⟩ := delivery.poll_takes (s.links j).inTransit s.now j
    simp only [htask] at h
    generalize delivery.poll (s.links j).inTransit s.now j = polled at h hperm hresult
    obtain ⟨result, delivery', q⟩ := polled
    -- what is still in flight
    have hrest : ∀ task, ∀ j', ∀ e ∈ (s.links j').inTransit.queue, e ∈ batch ∨
        e ∈ (((s.setInTransit j q).setForwarder j task).links j').inTransit.queue := by
      intro task j' e he
      by_cases hj : j' = j
      · subst hj
        have hq : ((s.setInTransit j' q).setForwarder j' task).links j' = { s.links j' with inTransit := q } := by
          simp [setForwarder, setInTransit, setLink]
        rw [hq]
        exact List.mem_append.1 (hperm.subset he)
      · right
        simpa [setForwarder, setInTransit, setLink, hj] using he
    rcases hresult with ⟨source, hpending, rfl⟩ | ⟨-, hready⟩
    · obtain rfl : result = .pending source := hpending
      obtain rfl := Option.some.inj h
      refine ⟨fun id hid => ?_, fun id hid => .inl hid⟩
      exact accountsFor_of_moved (s := s) (List.Subset.refl _) (fun j' e he => .inl ((hrest _ j' e he).resolve_left (by simp)))
        (fun _ e he => .inl he) (fun k i d hacc hun => .inl ⟨hacc, hun⟩) hid
    · obtain rfl : result = .ready (batch.map PrioritizedInTransitData.deliver) := hready
      dsimp only at h
      split at h
      · rename_i hok
        obtain rfl := Option.some.inj h
        rcases onward_forwardDelivered _ (by exact hfresh) hok with ⟨honward, hall, hgenerated⟩
        refine ⟨fun id hid => ?_, hgenerated⟩
        refine accountsFor_of_moved (s := s) honward.log (fun j' e he => ?_) (fun i e he => .inl (honward.inbound i he))
          (fun k i d hacc hun => .inl ⟨honward.accepted k i d hacc, fun hk => hun (honward.handled hk)⟩) hid
        rcases hrest _ j' e he with he | he
        · exact .inr (hall _ (List.mem_map_of_mem he))
        · exact .inl (honward.inTransit j' he)
      · obtain rfl := Option.some.inj h
        simp [setForwarder, ForwarderTask.hasPanicked] at halive

theorem onward_trySend {transmit : OwnedTransmit} {uuid : Uuid} {draws : Draws} (hfresh : s.FreshStay)
    (hrunning : (net.node i).udpEndpoint.isSome → s.nodeTasks i = .running)
    (h : s.trySend net i transmit uuid draws = some s') :
    Onward s s' ∧ ∀ id ∈ s'.generated, id ∈ s.generated ∨ s'.AccountsFor id := by
  unfold trySend at h
  split at h
  · simp at h
  rename_i endpoint hhost
  split_ifs at h
  obtain rfl := Option.some.inj h
  have hcreate : Onward s { s.newPacketId uuid with nextTransmitNumber := s.nextTransmitNumber + 1 } :=
    .of_eq (List.Subset.refl _) (fun _ => rfl) (fun _ => rfl) rfl rfl
  have hrunning' : ({ s.newPacketId uuid with nextTransmitNumber := s.nextTransmitNumber + 1 } : State).nodeTasks i = .running :=
    hrunning (by rw [hhost]; rfl)
  rcases exists_forward net hrunning' (s.inTransitData net i endpoint transmit uuid) draws with ⟨s₁, hforward⟩
  rcases onward_forward (hcreate.freshStay hfresh) hforward with ⟨honward, hnew, hgenerated⟩
  rw [hforward, settled_ok]
  refine ⟨hcreate.trans honward, fun id hid => ?_⟩
  rcases hgenerated id hid with hid | hid
  · rcases List.mem_append.1 hid with hid | hid
    · exact .inl hid
    · rw [List.mem_singleton.1 hid]
      exact .inr hnew
  · exact .inr hid

theorem onward_offer (net : InMemoryNetwork) (i : NodeIx) {packet : BufferedPacket} {outbound : List BufferedPacket}
    (hnext : (s.nodes i).outbound = packet :: outbound) (links : List LinkIx) (rolls : Nat → Roll × Roll) :
    Onward s (pushCopies net i packet links links rolls (s.takeOutbound i packet outbound links)) ∧
      (pushCopies net i packet links links rolls (s.takeOutbound i packet outbound links)).generated = s.generated := by
  have hnew : NothingNew s (pushCopies net i packet links links rolls (s.takeOutbound i packet outbound links)) := .offer hnext
  have hoffered : handledStays (s.history ++ [.offered packet.stay links]) = handledStays s.history := by
    rw [handledStays_snoc]
    exact List.append_nil _
  have hinTransit := hnew.inTransit
  have hinbound := hnew.inbound
  rw [pushCopies_eq] at hinTransit hinbound ⊢
  constructor
  · constructor
    case log => exact List.Subset.refl _
    case accepted => exact fun k i' d hacc => List.mem_append_left _ hacc
    case handled => exact fun k hk => hoffered ▸ hk
    case inTransit => exact fun j e he => hinTransit j ▸ he
    case inbound => exact fun i' e he => hinbound i' ▸ he
    case nextStay => exact Nat.le_refl _
  · rfl

end
end State

/-! ### Tasks that have ended -/

namespace Alive
open State
variable {net : InMemoryNetwork} {s s' : State}

theorem of_endNodeTask {i : NodeIx} {task : NodeTask} (htask : s.nodeTasks i = .running)
    (h : Alive net (s.endNodeTask i task)) : Alive net s where
  nodeTasks i' hi' := by
    by_cases hi : i' = i
    · exact hi ▸ htask
    · simpa [endNodeTask, setNodeTask, setNode, hi] using h.nodeTasks i' hi'
  linkTasks := h.linkTasks
  forwarders := h.forwarders

theorem not_endNodeTask {i : NodeIx} {task : NodeTask} (hi : i < net.nodes.length) (hend : task ≠ .running) :
    ¬ Alive net (s.endNodeTask i task) := by
  intro h
  have htask := h.nodeTasks i hi
  exact hend (by simpa [endNodeTask, setNodeTask] using htask)

theorem of_pushCopies {i : NodeIx} {packet : BufferedPacket} {candidates links : List LinkIx} {rolls : Nat → Roll × Roll}
    (h : Alive net (pushCopies net i packet candidates links rolls s)) : Alive net s := by
  rw [pushCopies_eq] at h
  exact ⟨h.nodeTasks, h.linkTasks, h.forwarders⟩

theorem effect {σ σ' : Scene} (he : Effect net σ σ') (h : Alive net σ'.state) : Alive net σ.state := by
  have hforwarders : ∀ j < net.links.length, (σ.state.forwarders j).hasPanicked = false := by
    intro j hj
    have hpanicked := h.forwarders j hj
    cases he with
    | takeInTransit _ s j' q delivery batch htask =>
      by_cases hjj : j = j'
      · subst hjj
        show (s.forwarders j).hasPanicked = false
        cases hforwarder : s.forwarders j with
        | awaiting delivery => rfl
        | panicked => exact absurd hforwarder htask
      · simpa [setForwarder, setInTransit, setLink, hjj] using hpanicked
    | panicForwarder _ s j' =>
      by_cases hjj : j = j'
      · simp [setForwarder, hjj, ForwarderTask.hasPanicked] at hpanicked
      · simpa [setForwarder, hjj] using hpanicked
    | offer =>
      rw [pushCopies_eq] at hpanicked
      exact hpanicked
    | panicOffer =>
      rw [pushCopies_eq] at hpanicked
      exact hpanicked
    | _ => exact hpanicked
  rcases he.quiet_or_stay with hq | hs
  · exact ⟨hq.nodeTasks ▸ h.nodeTasks, hq.linkTasks ▸ h.linkTasks, hforwarders⟩
  · generalize σ.state = s at hs hforwarders
    generalize σ'.state = s' at h hs
    cases hs with
    | accept i d buffer => exact ⟨h.nodeTasks, h.linkTasks, hforwarders⟩
    | acceptInVain i d buffer => exact ⟨h.nodeTasks, h.linkTasks, hforwarders⟩
    | offer i packet outbound links rolls =>
      have h := h.of_pushCopies
      exact ⟨h.nodeTasks, h.linkTasks, hforwarders⟩
    | panicOffer i packet outbound links done rest j rolls htask =>
      have htask' : (pushCopies net i packet links done rolls (s.takeOutbound i packet outbound links)).nodeTasks i = .running := by
        rw [pushCopies_eq]
        exact htask
      have h := (h.of_endNodeTask htask').of_pushCopies
      exact ⟨h.nodeTasks, h.linkTasks, hforwarders⟩
    | endNodeTask i task htask => exact h.of_endNodeTask htask

theorem linkEffect {j : LinkIx} (he : LinkEffect net j s s') (h : Alive net s') : Alive net s where
  nodeTasks i hi := by
    have htask := h.nodeTasks i hi
    cases he with
    | park p s₁ task hp => obtain ⟨queue, rfl⟩ := hp.eq_dequeue; exact htask
    | discard p p' s₁ hp => obtain ⟨queue, rfl⟩ := hp.eq_dequeue; exact htask
    | clear p p' s₁ hp => obtain ⟨queue, rfl⟩ := hp.eq_dequeue; exact htask
    | send p p' s₁ data slot hp => obtain ⟨queue, rfl⟩ := hp.eq_dequeue; exact htask
    | panicSend p p' s₁ hp => obtain ⟨queue, rfl⟩ := hp.eq_dequeue; exact htask
  linkTasks j' hj' := by
    by_cases hj : j' = j
    · subst hj
      cases he with
      | park p s₁ task hp => exact hp.task_ne_panicked
      | discard p p' s₁ hp => exact hp.task_ne_panicked
      | clear p p' s₁ hp => exact hp.task_ne_panicked
      | send p p' s₁ data slot hp => exact hp.task_ne_panicked
      | panicSend p p' s₁ hp => exact hp.task_ne_panicked
    · exact he.frame.linkTasks j' hj ▸ h.linkTasks j' hj'
  forwarders := he.forwarders ▸ h.forwarders

theorem event (hf : EventFrame s s') (h : Alive net s') : Alive net s :=
  ⟨hf.nodeTasks ▸ h.nodeTasks, hf.linkTasks ▸ h.linkTasks, hf.forwarders ▸ h.forwarders⟩

theorem preserved (net : InMemoryNetwork) : Preserved net fun σ => ¬ Alive net σ.state where
  effect _ _ he := mt (effect he)
  link _ _ _ _ he := mt (linkEffect he)
  linkEvent s event := mt (Alive.event (s.processLinkEvent_frame net event))
  nodeEvent s event := mt (Alive.event (s.processNodeEvent_frame net event))
  events _ _ := mt fun h => ⟨h.nodeTasks, h.linkTasks, h.forwarders⟩

theorem of_step {a : Action} (hstep : net.step s a = some s') (h : Alive net s') : Alive net s :=
  not_not.1 fun hended => (preserved net).step hstep hended h

end Alive

/-! ### Runs -/

/-- Every poll of a socket has slots for what it can be handed. -/
def ReadsAll (s : State) : Action → Prop
  | .pollRecv i metaLen => ∀ delivery ∈ s.sockets i, delivery.maxTransmits ≤ metaLen
  | _ => True

instance (s : State) : ∀ a, Decidable (ReadsAll s a)
  | .pollRecv i metaLen => inferInstanceAs (Decidable (∀ delivery ∈ s.sockets i, delivery.maxTransmits ≤ metaLen))
  | .advance _ | .networkEvent | .trySend .. | .nodeTask .. | .linkTask .. | .forwarder .. => isTrue trivial

/-- Every packet that was created is accounted for, as long as no task has ended. -/
structure SurvivalInv (net : InMemoryNetwork) (s : State) : Prop where
  stays : StaysInv net s
  accounts : Alive net s → ∀ id ∈ s.generated, s.AccountsFor id

namespace SurvivalInv
open State
variable {net : InMemoryNetwork} {s s' : State} {a : Action}

theorem freshStay (h : StaysInv net s) : s.FreshStay := by
  intro k hk
  obtain ⟨links, hoff⟩ := mem_offeredStays.1 (h.handledOffered k hk)
  obtain ⟨i, d, hacc, -⟩ := h.offered k links hoff
  exact h.acceptedLt k (mem_acceptedStays.2 ⟨i, d, hacc⟩)

theorem event (h : SurvivalInv net s) (hf : EventFrame s s') (hlog : s.log ⊆ s'.log) : SurvivalInv net s' where
  stays := h.stays.event hf
  accounts halive id hid := by
    have honward : Onward s s' := .of_eq hlog hf.inbound hf.inTransit hf.history hf.nextStay
    exact honward.accountsFor (h.accounts (halive.event hf) id (hf.generated ▸ hid))

theorem linkEvent (h : SurvivalInv net s) (payload : LinkEventPayload) : SurvivalInv net (s.processLinkEvent net payload) :=
  h.event (s.processLinkEvent_frame net payload) (s.linkEvent_logs net payload).grows.subset

theorem nodeEvent (h : SurvivalInv net s) (payload : NodeEventPayload) : SurvivalInv net (s.processNodeEvent net payload) :=
  h.event (s.processNodeEvent_frame net payload) (s.nodeEvent_logs net payload).grows.subset

theorem step (h : SurvivalInv net s) (hC : ReadsAll s a) (hstep : net.step s a = some s') : SurvivalInv net s' := by
  refine ⟨(StaysInv.preserved net).step hstep h.stays, fun halive => ?_⟩
  have halive₀ := halive.of_step hstep
  have hfresh := freshStay h.stays
  have hall := h.accounts halive₀
  cases a with
  | advance duration =>
    obtain rfl := Option.some.inj hstep
    have honward : Onward s { s with now := s.now + duration } := .of_eq (List.Subset.refl _) (fun _ => rfl) (fun _ => rfl) rfl rfl
    exact fun id hid => honward.accountsFor (hall id hid)
  | networkEvent =>
    rw [InMemoryNetwork.step] at hstep
    split at hstep
    · simp at hstep
    · rename_i event events hevents
      split_ifs at hstep
      obtain rfl := Option.some.inj hstep
      have h₁ : SurvivalInv net { s with events } :=
        ⟨{ h.stays with }, fun halive id hid => by
          have honward : Onward s { s with events } := .of_eq (List.Subset.refl _) (fun _ => rfl) (fun _ => rfl) rfl rfl
          exact honward.accountsFor (hall id hid)⟩
      have h₂ : SurvivalInv net (processEvent net { s with events } event) := by
        unfold processEvent
        cases event.kind with
        | link payload => exact h₁.linkEvent payload
        | node payload => exact h₁.nodeEvent payload
      exact h₂.accounts halive
  | trySend i transmit uuid draws =>
    have hrunning : (net.node i).udpEndpoint.isSome → s.nodeTasks i = .running := fun hhost =>
      halive₀.nodeTasks i (net.lt_length_of_isSome hhost)
    rcases onward_trySend hfresh hrunning hstep with ⟨honward, hgenerated⟩
    intro id hid
    rcases hgenerated id hid with hid | hid
    · exact honward.accountsFor (hall id hid)
    · exact hid
  | pollRecv i metaLen =>
    have hgenerated : s'.generated = s.generated := by
      obtain ⟨q, delivery, read, rfl⟩ := exists_of_pollRecv hstep
      rfl
    intro id hid
    exact accountsFor_pollRecv hC hstep (hall id (hgenerated ▸ hid))
  | nodeTask i rolls =>
    rw [InMemoryNetwork.step] at hstep
    split_ifs at hstep with hi
    obtain ⟨packet, outbound, -, hnext, htakes⟩ := processBufferForNode_takes hstep
    cases htakes with
    | panic => exact absurd halive (Alive.not_endNodeTask hi (by simp))
    | unroutable => exact absurd halive (Alive.not_endNodeTask hi (by simp))
    | panicOffer => exact absurd halive (Alive.not_endNodeTask hi (by simp))
    | offer links =>
      rcases onward_offer net i hnext links rolls with ⟨honward, hgenerated⟩
      exact fun id hid => honward.accountsFor (hall id (hgenerated ▸ hid))
  | linkTask j slot =>
    rw [InMemoryNetwork.step] at hstep
    split_ifs at hstep with hj
    have he := processLinkQueue_effect hstep
    intro id hid
    exact accountsFor_linkEffect h.stays he (halive.linkTasks j hj) (hall id (he.generated ▸ hid))
  | forwarder j draws =>
    rw [InMemoryNetwork.step] at hstep
    split_ifs at hstep with hj
    rcases accountsFor_forwardPackets hfresh hstep (halive.forwarders j hj) with ⟨hold, hgenerated⟩
    intro id hid
    rcases hgenerated id hid with hid | hid
    · exact hold id (hall id hid)
    · exact hid

theorem initialized {spec : NetworkSpec} {networkEvents : NetworkEvents} {s₀ : State} {simulationStart start now : Nat}
    {disableTimeWarping : Bool} (hinit : InMemoryNetwork.initializeNetwork spec networkEvents simulationStart start now
      disableTimeWarping = .ok (net, s₀)) : SurvivalInv net s₀ :=
  InMemoryNetwork.initializeNetwork_induction (I := SurvivalInv net) hinit
    ⟨.initial net now _, by simp [InMemoryNetwork.initialState]⟩
    (fun _ payload _ h => h.linkEvent payload) fun _ payload _ h => h.nodeEvent payload

theorem of_run {spec : NetworkSpec} {networkEvents : NetworkEvents} {s₀ : State} {simulationStart start now : Nat}
    {disableTimeWarping : Bool} {as : List Action}
    (hinit : InMemoryNetwork.initializeNetwork spec networkEvents simulationStart start now disableTimeWarping = .ok (net, s₀))
    (hreads : net.machine.Guarded ReadsAll s₀ as) (hrun : net.machine.run s₀ as = some s) : SurvivalInv net s :=
  Machine.run_invariant_of_guarded (M := net.machine) (fun _ _ _ h hC hstep => h.step hC hstep) hreads (.initialized hinit) hrun

end SurvivalInv

/-! ### The end of a life -/

theorem packetId_of_ends {kind : SimulationStepKind} {id : Uuid} (h : kind.ends = some id) : kind.packetId = some id := by
  cases kind with
  | packetInNode s =>
    rw [SimulationStepKind.ends] at h
    split_ifs at h
    exact h
  | packetDropped s => exact h
  | packetLostInTransit s => exact h
  | packetDeliveredToApplication s => exact h
  | packetDuplicated s => simp [SimulationStepKind.ends] at h
  | packetExtraDelay s => simp [SimulationStepKind.ends] at h
  | packetCongestionEvent s => simp [SimulationStepKind.ends] at h
  | packetInTransit s => simp [SimulationStepKind.ends] at h
  | networkEvent e => simp [SimulationStepKind.ends] at h

theorem Stage.Next.not_over {net : InMemoryNetwork} {id : Uuid} {t : Nat} {kind : SimulationStepKind} {l : Stage} :
    ¬ Stage.over.Next net id t kind l := by
  intro h
  cases h

/-- The step that ends a packet is the last one of its life. -/
theorem Stage.Next.eq_over {net : InMemoryNetwork} {id : Uuid} {t : Nat} {kind : SimulationStepKind} {l l' : Stage}
    (h : l.Next net id t kind l') (hends : kind.ends = some id) : l' = .over := by
  cases h with
  | created => simp [SimulationStepKind.ends] at hends
  | duplicated => simp [SimulationStepKind.ends] at hends
  | sent => simp [SimulationStepKind.ends] at hends
  | arrived => simp [SimulationStepKind.ends] at hends
  | droppedOnCreation => rfl
  | droppedOnArrival => rfl
  | lost => rfl
  | dropped => rfl
  | delivered => rfl

theorem Lived.eq_over {net : InMemoryNetwork} {id : Uuid} {steps : List SimulationStep} {l : Stage}
    (h : Lived net id steps l) (hends : Ended steps id) : l = .over := by
  induction h with
  | nil =>
    obtain ⟨step, hstep, -⟩ := hends
    simp at hstep
  | other step h hother ih =>
    rcases hends with ⟨step', hstep', hends⟩
    rcases List.mem_append.1 hstep' with hstep' | hstep'
    · exact ih ⟨step', hstep', hends⟩
    · rw [List.mem_singleton.1 hstep'] at hends
      exact absurd (packetId_of_ends hends) hother
  | next step h hnext ih =>
    rcases hends with ⟨step', hstep', hends⟩
    rcases List.mem_append.1 hstep' with hstep' | hstep'
    · obtain rfl := ih ⟨step', hstep', hends⟩
      exact absurd hnext Stage.Next.not_over
    · rw [List.mem_singleton.1 hstep'] at hends
      exact hnext.eq_over hends

/-- A packet that is somewhere has not ended. -/
theorem Lives.not_ended {net : InMemoryNetwork} {s : State} (h : Lives net ⟨[], s⟩) {p : Place} {d : InTransitData}
    (hd : Scene.At ⟨[], s⟩ false p d) : ¬ Ended s.log d.id := by
  intro hends
  rcases h.fits false p d hd with ⟨l, hl, hfits⟩
  obtain rfl := hl.eq_over hends
  cases hd with
  | inTransit he => simp [Place.Fits] at hfits
  | inbound he => simp [Place.Fits] at hfits
  | stay hacc hun => simp [Place.Fits] at hfits

end QuicWorkbench
