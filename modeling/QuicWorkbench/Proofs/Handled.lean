import QuicWorkbench.Lib.Along
import QuicWorkbench.Proofs.Simulate
import QuicWorkbench.Proofs.Stays

/-!
# Every packet is handled at most once, and none is lost between the links

The copies of a packet race through the queues of its candidate links. `CopiesInv` counts them: as long
as no link task has panicked, an unhandled packet has, on every link, as many copies as the link occurs
among the candidates. A link task discards its copy only of a packet that was handled before.
-/

namespace QuicWorkbench

/-- The number of copies of the packet on the link. -/
def State.copyCount (s : State) (j : LinkIx) (k : Nat) : Nat := (s.copies j).countP fun c => c.stay = k

/-- A discard is of a packet that was handled before. -/
def DiscardedAfter (before : List Observation) (o : Observation) : Prop :=
  ∀ j p, o = .discarded j p → p.stay ∈ handledStays before

structure CopiesInv (net : InMemoryNetwork) (s : State) : Prop where
  stays : StaysInv net s
  discarded : Along DiscardedAfter s.history
  copies : (∀ j, s.linkTasks j ≠ .panicked) → ∀ k links, .offered k links ∈ s.history → s.handled k = false →
    ∀ j, s.copyCount j k = links.count j

namespace CopiesInv
variable {net : InMemoryNetwork} {s s' : State}

theorem initial (net : InMemoryNetwork) (now : Nat) (events : List NetworkEvent) :
    CopiesInv net (net.initialState now events) :=
  ⟨.initial net now events, along_nil, by simp [InMemoryNetwork.initialState]⟩

theorem frame (h : CopiesInv net s) (hstays : StaysInv net s') (hhistory : s'.history = s.history)
    (hhandled : s'.handled = s.handled) (htasks : s'.linkTasks = s.linkTasks)
    (hcopies : ∀ j, s'.copies j = s.copies j) : CopiesInv net s' where
  stays := hstays
  discarded := by rw [hhistory]; exact h.discarded
  copies := by
    rw [htasks, hhistory, hhandled]
    intro halive k links hoff hun j
    rw [State.copyCount, hcopies j]
    exact h.copies halive k links hoff hun j

theorem quiet (h : CopiesInv net s) (hq : Quiet s s') : CopiesInv net s' :=
  h.frame (h.stays.quiet hq) hq.history hq.handled hq.linkTasks fun j => by
    rw [State.copies, hq.linkTasks, hq.outgoingQueue j]
    rfl

theorem event (h : CopiesInv net s) (hf : State.EventFrame s s') : CopiesInv net s' :=
  h.frame (h.stays.event hf) hf.history hf.handled hf.linkTasks fun j => by
    rw [State.copies, hf.linkTasks, hf.outgoingQueue j]
    rfl

theorem accept (h : CopiesInv net s) (i : NodeIx) (buffer : OutboundBuffer) (d : InTransitData) :
    CopiesInv net (s.accept i buffer d) where
  stays := h.stays.accept i buffer d
  discarded := along_snoc.2 ⟨h.discarded, by simp [DiscardedAfter]⟩
  copies := fun halive k links hoff hun j => by
    have hoff : .offered k links ∈ s.history ++ [.accepted s.nextStay i d] := hoff
    exact h.copies halive k links (by simpa using hoff) hun j

theorem offer (h : CopiesInv net s) {i : NodeIx} {packet : BufferedPacket} {outbound : List BufferedPacket}
    {links : List LinkIx} (rolls : Nat → Roll × Roll) (hnext : (s.nodes i).outbound = packet :: outbound)
    (hstays : StaysInv net (State.pushCopies net i packet links links rolls (s.takeOutbound i packet outbound links))) :
    CopiesInv net (State.pushCopies net i packet links links rolls (s.takeOutbound i packet outbound links)) := by
  obtain ⟨links', heq, hlinks⟩ := State.pushCopies_spec net i packet links links rolls
    (s.takeOutbound i packet outbound links)
  rw [heq] at hstays ⊢
  refine ⟨hstays, along_snoc.2 ⟨h.discarded, by simp [DiscardedAfter]⟩, fun halive k candidates hoff hun j => ?_⟩
  obtain ⟨new, hj, hlen, hnew⟩ := hlinks j
  have hcount : State.copyCount { s.takeOutbound i packet outbound links with links := links' } j k =
      s.copyCount j k + new.countP fun c => c.stay = k := by
    simp only [State.copyCount, State.copies, hj, ← List.append_assoc, List.countP_append]
    rfl
  rw [hcount]
  have hstay : ∀ c ∈ new, c.stay = packet.stay := fun c hc => by
    obtain ⟨r, rfl⟩ := hnew c hc
    rfl
  have hoff : .offered k candidates ∈ s.history ++ [.offered packet.stay links] := hoff
  rcases List.mem_append.1 hoff with hoff | hoff
  · -- an earlier offer, of another stay
    have hne : packet.stay ≠ k := fun heq =>
      (h.stays.outbound i packet (by simp [hnext])).2 (heq ▸ mem_offeredStays.2 ⟨candidates, hoff⟩)
    have hzero : (new.countP fun c => c.stay = k) = 0 :=
      List.countP_eq_zero.2 fun c hc => by simp [hstay c hc, hne]
    rw [hzero]
    exact h.copies halive k candidates hoff hun j
  · obtain ⟨rfl, rfl⟩ := by simpa using hoff
    have hzero : s.copyCount j packet.stay = 0 := List.countP_eq_zero.2 fun c hc hk => by
      obtain ⟨-, links, hoff, -⟩ := h.stays.copy j c hc
      rw [of_decide_eq_true hk] at hoff
      exact (h.stays.outbound i packet (by simp [hnext])).2 (mem_offeredStays.2 ⟨links, hoff⟩)
    have hall : (new.countP fun c => c.stay = packet.stay) = new.length :=
      List.countP_eq_length.2 fun c hc => by simp [hstay c hc]
    rw [hzero, hall, hlen, Nat.zero_add]

theorem stayEffect (h : CopiesInv net s) (he : StayEffect net s s') : CopiesInv net s' := by
  have hstays := h.stays.stayEffect he
  cases he with
  | accept i d buffer hbuffer htask =>
    exact { h.accept i buffer d with stays := hstays }
  | acceptInVain i d buffer hbuffer htask => exact h.accept i buffer d
  | offer i packet outbound links rolls htask hnext hlinks hall => exact h.offer rolls hnext hstays
  | panicOffer i packet outbound links done rest j rolls htask hnext hlinks hsplit hpanicked =>
    rw [State.pushCopies_eq] at hstays ⊢
    exact ⟨hstays, along_snoc.2 ⟨h.discarded, by simp [DiscardedAfter]⟩, fun halive => absurd hpanicked (halive j)⟩
  | endNodeTask i task htask hend => exact h.frame hstays rfl rfl rfl fun j => rfl

theorem handle (h : CopiesInv net s) (hstays : StaysInv net s') {j : LinkIx} {p : OutgoingPacket} {t : LinkTask} {o : Observation}
    (hne : ∀ j', j' ≠ j → s'.copies j' = s.copies j') (hself : s.copies j = p :: s'.copies j)
    (htasks : s'.linkTasks = Function.update s.linkTasks j t) (hpanic : s.linkTasks j ≠ .panicked)
    (hhandled : s'.handled = Function.update s.handled p.stay true) (hhistory : s'.history = s.history ++ [o])
    (hdiscarded : DiscardedAfter s.history o) (hoffered : ∀ k links, o ≠ .offered k links) : CopiesInv net s' := by
  refine ⟨hstays, hhistory ▸ along_snoc.2 ⟨h.discarded, hdiscarded⟩, fun halive k links hoff hun j' => ?_⟩
  have hhas : .offered k links ∈ s.history := by
    rw [hhistory] at hoff
    rcases List.mem_append.1 hoff with hoff | hoff
    · exact hoff
    · exact absurd (List.mem_singleton.1 hoff).symm (hoffered k links)
  have hpk : k ≠ p.stay := by
    rintro rfl
    simp [hhandled] at hun
  have hun : s.handled k = false := by rwa [hhandled, Function.update_of_ne hpk] at hun
  have halive : ∀ j, s.linkTasks j ≠ .panicked := by
    intro j₁
    rcases eq_or_ne j₁ j with rfl | hj
    · exact hpanic
    · have hj₁ := halive j₁
      rwa [htasks, Function.update_of_ne hj] at hj₁
  rw [← h.copies halive k links hhas hun j', State.copyCount, State.copyCount]
  rcases eq_or_ne j' j with rfl | hj
  · simp [hself, hpk.symm]
  · rw [hne j' hj]

theorem linkEffect (h : CopiesInv net s) {j : LinkIx} (he : LinkEffect net j s s') : CopiesInv net s' := by
  have hstays := h.stays.linkEffect he
  have hne : ∀ j', j' ≠ j → s'.copies j' = s.copies j' := fun j' hj => he.copies_of_ne hj
  -- on the other links nothing changes, so the copies on the link itself are counted
  have hcopies : ∀ {k : Nat} {links : List LinkIx}, (∀ j, s.linkTasks j ≠ .panicked) →
      .offered k links ∈ s.history → s.handled k = false → s'.copyCount j k = s.copyCount j k →
      ∀ j', s'.copyCount j' k = links.count j' := by
    intro k links halive hoff hun hself j'
    by_cases hj : j' = j
    · rw [hj, hself]
      exact h.copies halive k links hoff hun j
    · rw [State.copyCount, hne j' hj]
      exact h.copies halive k links hoff hun j'
  have halive_of : ∀ {t : LinkTask}, s'.linkTasks = Function.update s.linkTasks j t →
      s.linkTasks j ≠ .panicked → (∀ j, s'.linkTasks j ≠ .panicked) → ∀ j, s.linkTasks j ≠ .panicked := by
    intro t htasks hj halive j'
    by_cases hjj : j' = j
    · exact hjj ▸ hj
    · have := halive j'
      rwa [htasks, Function.update_of_ne hjj] at this
  cases he with
  | park p s₁ task hp =>
    have hself := hp.copies
    obtain ⟨links₁, htask⟩ := hp.await
    have hpanic := hp.task_ne_panicked
    obtain ⟨queue, rfl⟩ := hp.eq_dequeue
    refine ⟨hstays, h.discarded, fun halive k links hoff hun => hcopies (halive_of rfl hpanic halive) hoff hun ?_⟩
    simp only [State.copyCount, hself]
    simp [State.copies, State.setLinkTask, htask, List.countP_cons]
  | discard p p' s₁ hp hhandled =>
    have hself := hp.copies
    obtain ⟨links₁, rfl⟩ := hp.ready
    have hpanic := hp.task_ne_panicked
    obtain ⟨queue, rfl⟩ := hp.eq_dequeue
    refine ⟨hstays, along_snoc.2 ⟨h.discarded, ?_⟩, fun halive k links hoff hun =>
      hcopies (halive_of rfl hpanic halive) (by simpa [State.setLinkTask, State.observe, State.dequeue, State.setLink]
        using hoff) hun ?_⟩
    · rintro j' p' heq
      obtain ⟨-, rfl⟩ := by simpa using heq
      exact (h.stays.handled p.stay).1 hhandled
    · have hpk : p.stay ≠ k := by
        rintro rfl
        have hun : s.handled p.stay = false := hun
        rw [hun] at hhandled
        exact Bool.noConfusion hhandled
      simp only [State.copyCount, hself]
      simp [State.copies, State.setLinkTask, State.observe, LinkTask.packet?, hpk]
  | clear p p' s₁ hp hun' =>
    have hpanic := hp.task_ne_panicked
    have hself := hp.copies
    obtain ⟨queue, rfl⟩ := hp.eq_dequeue
    refine h.handle hstays hne ?_ rfl hpanic rfl rfl (by simp [DiscardedAfter]) (by simp)
    rw [hself]
    simp [State.copies, State.setLinkTask, State.observe, LinkTask.packet?, State.setHandled,
      State.trackDroppedByBufferClearEvent, State.trackDropped, State.record]
  | send p p' s₁ data slot hp hun' =>
    have hpanic := hp.task_ne_panicked
    have hself := hp.copies
    obtain ⟨queue, rfl⟩ := hp.eq_dequeue
    refine h.handle hstays hne ?_ rfl hpanic rfl rfl (by simp [DiscardedAfter]) (by simp)
    rw [hself]
    simp [State.copies, State.setLinkTask, State.observe, LinkTask.packet?, State.setHandled, State.transmit,
      State.setLink, State.setNode, State.trackPacketInTransit, State.record]
  | panicSend p p' s₁ hp =>
    obtain ⟨queue, rfl⟩ := hp.eq_dequeue
    refine ⟨hstays, along_snoc.2 ⟨h.discarded, by simp [DiscardedAfter]⟩, fun halive => absurd ?_ (halive j)⟩
    simp [State.panicLinkTask, State.setLinkTask]

theorem preserved (net : InMemoryNetwork) : Preserved net fun σ => CopiesInv net σ.state where
  effect σ σ' he h := by
    rcases he.quiet_or_stay with hq | hs
    · exact h.quiet hq
    · exact h.stayEffect hs
  link j s s' hj he h := h.linkEffect he
  linkEvent s event h := h.event (s.processLinkEvent_frame net event)
  nodeEvent s event h := h.event (s.processNodeEvent_frame net event)
  events s events h := { h with stays := { h.stays with } }

end CopiesInv

/-- In every state reached: each packet is offered to its candidate links once, and handled at most once
by all their tasks together; a copy is only discarded after the packet was handled; and while no link
task has panicked, an unhandled packet has its copies on all candidate links. -/
theorem handled_at_most_once {disableTimeWarping : Bool} {spec : NetworkSpec} {events : List NetworkEvent}
    {net : InMemoryNetwork} {s : State} (h : Reaches disableTimeWarping spec events net s) :
    (∀ k, (offeredStays s.history).count k ≤ 1) ∧
    (∀ k, (handledStays s.history).count k ≤ 1) ∧
    Along DiscardedAfter s.history ∧
    ((∀ j, s.linkTasks j ≠ .panicked) → ∀ k links, .offered k links ∈ s.history → k ∉ handledStays s.history →
      ∀ j, s.copyCount j k = links.count j) := by
  have hI : CopiesInv net s := (CopiesInv.preserved net).reaches (fun now events _ => .initial net now events) h
  refine ⟨List.nodup_iff_count_le_one.1 hI.stays.offeredNodup, List.nodup_iff_count_le_one.1 hI.stays.handledNodup,
    hI.discarded, fun halive k links hoff hun => ?_⟩
  refine hI.copies halive k links hoff ?_
  rw [← Bool.not_eq_true, hI.stays.handled k]
  exact hun

/-- A packet on two links: sent by the first one, and then discarded by the second one. -/
theorem handled_at_most_once_hostPair : ∃ net s, Reaches false (hostPair 8000000 0) [] net s ∧
    (handledStays s.history = [0] ∧ s.history.length = 4) ∧ (handledStays s.history).count 0 ≤ 1 := by
  obtain ⟨net, s, hreach, hs⟩ := exists_reaches_of_simulate (hostPair 8000000 0) []
    (HostPair.sendFromA 1 ++ [.linkTask 1 0, .linkTask 0 0, .linkTask 1 0])
    (fun _ s => handledStays s.history = [0] ∧ s.history.length = 4) (by decide +kernel)
  exact ⟨net, s, hreach, of_decide_eq_true hs, (handled_at_most_once hreach).2.1 0⟩

end QuicWorkbench
