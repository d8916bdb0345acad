import QuicWorkbench.Proofs.LinkDown
import QuicWorkbench.Proofs.Replayable
import QuicWorkbench.Proofs.Sends

/-!
# Packets that arrive although their link was down

In a run, a packet that comes off its link although the log has the link go down at the send or later was sent at the
very instant of a down event, with the link being up again: a later down event would take the link down, and the forwarder
would see that (`DownInv`). So the only receptions that the verifier reports as offline are of packets whose link went
down at the instant of the send and was not taken down between the send and the arrival.
-/

namespace QuicWorkbench

/-- The events of the link, as the log shows them. -/
def statusOps (log : List SimulationStep) (linkId : String) : List TimedLinkOp :=
  log.filterMap fun step => (step.kind.linkStatus linkId).map fun update => ⟨step.relativeTime, .status update⟩

/-- The log has the link go down at the time. -/
def DownAt (log : List SimulationStep) (linkId : String) (time : Nat) : Prop := HasDown (· = time) (statusOps log linkId)

/-- The log has the link taken down, from up, after the time. -/
def TakenDownAfter (log : List SimulationStep) (linkId : String) (time : Nat) : Prop :=
  TakenDown (time < ·) (statusOps log linkId)

/-- The log has the packet sent on the link at the time. -/
def SentOver (log : List SimulationStep) (linkId : String) (id : Uuid) (time : Nat) : Prop :=
  ∃ send ∈ log, ∃ p, send.kind = .packetInTransit p ∧ p.packetId = id ∧ p.linkId = linkId ∧ send.relativeTime = time

section
variable {log log' : List SimulationStep} {step : SimulationStep} {linkId : String} {id : Uuid} {time : Nat}
  {update : UpdateLinkStatus}

theorem statusOps_snoc_of_none (h : step.kind.linkStatus linkId = none) :
    statusOps (log ++ [step]) linkId = statusOps log linkId := by
  simp [statusOps, h]

theorem statusOps_snoc_of_some (h : step.kind.linkStatus linkId = some update) :
    statusOps (log ++ [step]) linkId = statusOps log linkId ++ [⟨step.relativeTime, .status update⟩] := by
  simp [statusOps, h]

theorem hasDown_statusOps {P : Nat → Prop} : HasDown P (statusOps log linkId) ↔
    ∃ step ∈ log, step.kind.linkStatus linkId = some .down ∧ P step.relativeTime := by
  constructor
  · rintro ⟨x, hx, hdown, hP⟩
    obtain ⟨step, hstep, hstatus⟩ := List.mem_filterMap.1 hx
    obtain ⟨update, hupdate, rfl⟩ := Option.map_eq_some_iff.1 hstatus
    obtain rfl := LinkOp.status.inj hdown
    exact ⟨step, hstep, hupdate, hP⟩
  · rintro ⟨step, hstep, hdown, hP⟩
    exact ⟨⟨step.relativeTime, .status .down⟩, List.mem_filterMap.2 ⟨step, hstep, by simp [hdown]⟩, rfl, hP⟩

theorem DownAt.mono (h : DownAt log linkId time) (hle : log <+: log') : DownAt log' linkId time := by
  obtain ⟨step, hstep, hrest⟩ := hasDown_statusOps.1 h
  exact hasDown_statusOps.2 ⟨step, hle.subset hstep, hrest⟩

theorem SentOver.mono (h : SentOver log linkId id time) (hle : log <+: log') : SentOver log' linkId id time := by
  obtain ⟨send, hsend, hrest⟩ := h
  exact ⟨send, hle.subset hsend, hrest⟩

theorem downAt_of_lastDownAfter {c : Nat} (h : lastDownAfter log linkId = some c) : DownAt log linkId c := by
  induction log using List.reverseRecOn with
  | nil => simp [lastDownAfter] at h
  | append_singleton log step ih =>
    rw [lastDownAfter_snoc] at h
    split_ifs at h with hdown
    · exact hasDown_statusOps.2 ⟨step, by simp, hdown, Option.some.inj h⟩
    · exact (ih h).mono (List.prefix_append _ _)

end

/-! ### When links were taken down -/

theorem Effect.lastDown {net : InMemoryNetwork} {σ σ' : Scene} (h : Effect net σ σ') (j : LinkIx) :
    (σ'.state.links j).lastDown = (σ.state.links j).lastDown := by
  cases h with
  | offer h s i packet outbound links rolls =>
    obtain ⟨links', heq, hlinks⟩ := State.pushCopies_spec net i packet links links rolls (s.takeOutbound i packet outbound links)
    obtain ⟨new, hj, -⟩ := hlinks j
    rw [heq]
    show (links' j).lastDown = _
    rw [hj]
    rfl
  | panicOffer h s i packet outbound links done rest j' rolls =>
    obtain ⟨links', heq, hlinks⟩ := State.pushCopies_spec net i packet links done rolls (s.takeOutbound i packet outbound links)
    obtain ⟨new, hj, -⟩ := hlinks j
    rw [heq]
    show (links' j).lastDown = _
    rw [hj]
    rfl
  | takeInTransit h s j' q delivery batch =>
    by_cases hj : j = j'
    · subst hj
      simp [State.setForwarder, State.setInTransit, State.setLink]
    · simp [State.setForwarder, State.setInTransit, State.setLink, hj]
  | _ => rfl

theorem LinkEffect.lastDown {net : InMemoryNetwork} {s s' : State} {j : LinkIx} (h : LinkEffect net j s s') (j' : LinkIx) :
    (s'.links j').lastDown = (s.links j').lastDown := by
  cases h with
  | park p s₁ task hp =>
    obtain ⟨queue, rfl⟩ := hp.eq_dequeue
    by_cases hj : j' = j <;> simp [State.setLinkTask, State.dequeue, State.setLink, hj]
  | discard p p' s₁ hp =>
    obtain ⟨queue, rfl⟩ := hp.eq_dequeue
    by_cases hj : j' = j <;> simp [State.setLinkTask, State.observe, State.dequeue, State.setLink, hj]
  | clear p p' s₁ hp =>
    obtain ⟨queue, rfl⟩ := hp.eq_dequeue
    by_cases hj : j' = j <;> simp [State.setLinkTask, State.observe, State.dequeue, State.setLink, State.setHandled,
      State.trackDroppedByBufferClearEvent, State.trackDropped, State.record, hj]
  | panicSend p p' s₁ hp =>
    obtain ⟨queue, rfl⟩ := hp.eq_dequeue
    by_cases hj : j' = j <;>
      simp [State.panicLinkTask, State.setLinkTask, State.observe, State.dequeue, State.setLink, State.setHandled, hj]
  | send p p' s₁ data slot hp =>
    obtain ⟨queue, rfl⟩ := hp.eq_dequeue
    by_cases hj : j' = j <;> simp [State.setLinkTask, State.observe, State.dequeue, State.setLink, State.setHandled,
      State.transmit, State.setNode, State.trackPacketInTransit, State.record, hj]

/-- The packet, sent on the link at the instant, has not got past the forwarder. -/
inductive Scene.OnLink (σ : Scene) (j : LinkIx) : Nat → Uuid → Prop
  | held (sent : Nat) (d : InTransitData) (h : (.transit j sent, d) ∈ σ.held) : OnLink σ j sent d.id
  | inTransit (e : PrioritizedInTransitData) (h : e ∈ (σ.state.links j).inTransit.queue) : OnLink σ j e.sent e.data.id

theorem Scene.OnLink.frame {held held' : List (Place × InTransitData)} {s s' : State} {j : LinkIx} {sent : Nat}
    {id : Uuid} (h : OnLink ⟨held', s'⟩ j sent id) (hheld : ∀ d, (.transit j sent, d) ∈ held' → (.transit j sent, d) ∈ held)
    (hqueue : (s'.links j).inTransit.queue = (s.links j).inTransit.queue) : OnLink ⟨held, s⟩ j sent id := by
  cases h with
  | held _ d h => exact .held sent d (hheld d h)
  | inTransit e h => exact .inTransit e (hqueue ▸ h)

theorem Effect.onLink {net : InMemoryNetwork} {σ σ' : Scene} (he : Effect net σ σ') {j : LinkIx} {sent : Nat}
    {id : Uuid} (h : σ'.OnLink j sent id) : σ.OnLink j sent id := by
  cases he with
  | advance s duration => exact h.frame (fun d hd => hd) rfl
  | create hs s i endpoint transmit uuid => exact h.frame (fun d hd => by simpa using hd) rfl
  | abandon hs hs' s hsub => exact h.frame (fun d hd => hsub.subset hd) rfl
  | dropOnArrival hs s p i d₀ => exact h.frame (fun d hd => List.mem_cons_of_mem _ hd) rfl
  | enter hs s p i d₀ => exact h.frame (fun d hd => List.mem_cons_of_mem _ (by simpa using hd)) rfl
  | loseInTransit hs s j₀ sent₀ d₀ => exact h.frame (fun d hd => List.mem_cons_of_mem _ hd) rfl
  | sendInbound hs s i d₀ slot => exact h.frame (fun d hd => List.mem_cons_of_mem _ hd) rfl
  | dropRandomly hs s i d₀ => exact h.frame (fun d hd => List.mem_cons_of_mem _ hd) rfl
  | duplicate hs s i d₀ uuid => exact h.frame (fun d hd => List.mem_cons_of_mem _ (by simpa using hd)) rfl
  | introduce hs s i d₀ => exact h.frame (fun d hd => List.mem_cons_of_mem _ (by simpa using hd)) rfl
  | dropBecauseBufferFull hs s i d₀ => exact h.frame (fun d hd => List.mem_cons_of_mem _ hd) rfl
  | accept hs s i d₀ buffer => exact h.frame (fun d hd => List.mem_cons_of_mem _ hd) rfl
  | acceptInVain hs s i d₀ buffer => exact h.frame (fun d hd => List.mem_cons_of_mem _ hd) rfl
  | panicForwarder hs s j₀ => exact h.frame (fun d hd => hd) rfl
  | takeInbound hs s i q delivery batch =>
    refine h.frame (fun d hd => ?_) rfl
    rcases List.mem_append.1 hd with hd | hd
    · obtain ⟨e, -, heq⟩ := List.mem_map.1 hd
      simp [PrioritizedInTransitData.atHost] at heq
    · exact hd
  | read hs s i d₀ => exact h.frame (fun d hd => List.mem_cons_of_mem _ hd) rfl
  | offer hs s i packet outbound links rolls htask hnext =>
    exact h.frame (fun d hd => hd) ((NothingNew.offer hnext).inTransit j)
  | panicOffer hs s i packet outbound links done rest j₀ rolls htask hnext =>
    exact h.frame (fun d hd => hd) (((NothingNew.offer hnext).trans (.endNodeTask _ i .panicked)).inTransit j)
  | endNodeTask hs s i task => exact h.frame (fun d hd => hd) rfl
  | takeInTransit hs s j₀ q delivery batch htask hperm hdue =>
    cases h with
    | held _ d hd =>
      rcases List.mem_append.1 hd with hd | hd
      · obtain ⟨e, he, heq⟩ := List.mem_map.1 hd
        obtain ⟨hplace, rfl⟩ := Prod.mk.inj heq
        obtain ⟨rfl, rfl⟩ := Place.transit.inj hplace
        exact Scene.OnLink.inTransit (σ := ⟨hs, s⟩) e (hperm.symm.subset (List.mem_append_left _ he))
      · exact .held sent d hd
    | inTransit e he =>
      refine .inTransit e ?_
      by_cases hj : j = j₀
      · subst hj
        have he : e ∈ q.queue := by simpa [State.setInTransit, State.setForwarder, State.setLink] using he
        exact hperm.symm.subset (List.mem_append_right _ he)
      · simpa [State.setInTransit, State.setForwarder, State.setLink, hj] using he

theorem LinkEffect.onLink {net : InMemoryNetwork} {s s' : State} {j j' : LinkIx} (he : LinkEffect net j s s') {sent : Nat}
    {id : Uuid} (h : Scene.OnLink ⟨[], s'⟩ j' sent id) :
    Scene.OnLink ⟨[], s⟩ j' sent id ∨ j' = j ∧ sent = s.now ∧ (s.links j').status.isDown = false ∧
      SentOver s'.log (net.link j').id id (s.now - net.simulationStart) := by
  by_cases hj : j' = j
  · subst hj
    rcases he.sends with ⟨p, slot, hsend⟩ | ⟨-, -, hqueue⟩
    · cases h with
      | held _ d hd => simp at hd
      | inTransit e hmem =>
        rw [show (Scene.mk [] s').state.links j' = s'.links j' from rfl, hsend.inTransit] at hmem
        rcases MaxHeap.mem_push.1 hmem with rfl | hmem
        · exact .inr ⟨rfl, rfl, hsend.up, _, hsend.log ▸ List.mem_append_right _ (List.mem_singleton_self _), _, rfl, rfl,
            rfl, rfl⟩
        · exact .inl (.inTransit e hmem)
    · exact .inl (h.frame (fun d hd => hd) (by rw [hqueue]))
  · exact .inl (h.frame (fun d hd => hd) (by rw [he.inTransit_of_ne hj]))

/-! ### The invariant -/

/-- What the forwarder of the link knows about it and the packets on it, against what the log shows. -/
structure LinkDownInv (net : InMemoryNetwork) (σ : Scene) (j : LinkIx) : Prop where
  status : (σ.state.links j).status.toUpdate = statusAfter (statusOps σ.state.log (net.link j).id)
  /-- The log shows when the link was taken down. -/
  marked : ∀ l, (σ.state.links j).lastDown = some l →
    DownAt σ.state.log (net.link j).id (l - net.simulationStart)
  /-- The link knows when it was last taken down. -/
  seen : ∀ t, TakenDownAfter σ.state.log (net.link j).id t →
    ∃ l, (σ.state.links j).lastDown = some l ∧ t < l - net.simulationStart
  recorded : ∀ sent id, σ.OnLink j sent id → SentOver σ.state.log (net.link j).id id (sent - net.simulationStart)
  /-- Nothing is sent while the link is down. -/
  taken : ∀ sent id, σ.OnLink j sent id → (σ.state.links j).status.isDown →
    ∃ l, (σ.state.links j).lastDown = some l ∧ sent ≤ l
  /-- A packet that the forwarder lets through was sent at a down event, or later than the last one. -/
  apart : ∀ sent id, σ.OnLink j sent id → (σ.state.links j).wasDownAfter sent = false →
    ∀ c, lastDownAfter σ.state.log (net.link j).id = some c → sent - net.simulationStart ≤ c →
      DownAt σ.state.log (net.link j).id (sent - net.simulationStart)

structure DownInv (net : InMemoryNetwork) (σ : Scene) : Prop where
  log : LogInv net σ.state
  onLink : ∀ j sent id, σ.OnLink j sent id → j < net.links.length ∧ sent ≤ σ.state.now
  links : ∀ j < net.links.length, LinkDownInv net σ j

theorem NetworkLink.le_of_wasDownAfter {link : NetworkLink} {sent l : Nat} (h : link.wasDownAfter sent = false)
    (hl : link.lastDown = some l) : l ≤ sent := by
  simpa [wasDownAfter, hl] using h

theorem LinkStatus.isDown_iff_toUpdate (status : LinkStatus) : status.isDown ↔ status.toUpdate = .down := by
  cases status <;> simp [isDown, toUpdate]

namespace LinkDownInv
variable {net : InMemoryNetwork} {σ σ' : Scene} {s s' : State} {j : LinkIx}

theorem frame (h : LinkDownInv net σ j) (hlog : LogInv net σ.state)
    (hstatus : (σ'.state.links j).status = (σ.state.links j).status)
    (hlast : (σ'.state.links j).lastDown = (σ.state.links j).lastDown)
    (hgrows : σ.state.log <+: σ'.state.log)
    (hops : statusOps σ'.state.log (net.link j).id = statusOps σ.state.log (net.link j).id)
    (hafter : lastDownAfter σ'.state.log (net.link j).id = lastDownAfter σ.state.log (net.link j).id)
    (honLink : ∀ sent id, σ'.OnLink j sent id → σ.OnLink j sent id ∨ sent = σ.state.now ∧
      (σ.state.links j).status.isDown = false ∧
      SentOver σ'.state.log (net.link j).id id (σ.state.now - net.simulationStart)) : LinkDownInv net σ' j where
  status := by rw [hstatus, hops, h.status]
  marked l hl := (h.marked l (hlast ▸ hl)).mono hgrows
  seen t ht := by
    rw [TakenDownAfter, hops] at ht
    rw [hlast]
    exact h.seen t ht
  recorded sent id hsent := by
    rcases honLink sent id hsent with hold | ⟨rfl, -, hover⟩
    · exact (h.recorded sent id hold).mono hgrows
    · exact hover
  taken sent id hsent hdown := by
    rw [hlast]
    rw [hstatus] at hdown
    rcases honLink sent id hsent with hold | ⟨-, hup, -⟩
    · exact h.taken sent id hold hdown
    · simp [hup] at hdown
  apart sent id hsent hthrough c hc hle := by
    rw [hafter] at hc
    rcases honLink sent id hsent with hold | ⟨rfl, -⟩
    · refine (h.apart sent id hold ?_ c hc hle).mono hgrows
      rwa [NetworkLink.wasDownAfter, hlast] at hthrough
    · -- no event is later than now
      obtain ⟨step, hstep, hdown, rfl⟩ := hasDown_statusOps.1 (downAt_of_lastDownAfter hc)
      have hpast := hlog.past step hstep
      exact hasDown_statusOps.2 ⟨step, hgrows.subset hstep, hdown, Nat.le_antisymm hpast hle⟩

theorem linkChange {s₁ : State} {event : LinkEventPayload} (h : LinkDownInv net ⟨[], s⟩ j) (hpast : LogInv net s)
    (hsent : ∀ sent id, Scene.OnLink ⟨[], s⟩ j sent id → sent ≤ s.now) (hid : (net.link j).id = event.linkId)
    (hchange : State.LinkChange s j event.status s₁)
    (hlog : s'.log = s.log ++ [⟨s.now - net.simulationStart, .networkEvent { link := some event, node := none }⟩])
    (hlinks : s'.links = s₁.links) : LinkDownInv net ⟨[], s'⟩ j := by
  have hgrows : s.log <+: s'.log := hlog ▸ List.prefix_append _ _
  have hkind : (SimulationStepKind.networkEvent { link := some event, node := none }).linkStatus (net.link j).id =
      event.status := by
    simp [SimulationStepKind.linkStatus, hid]
  have hafter : lastDownAfter s'.log (net.link j).id = if event.status = some .down then
      some (s.now - net.simulationStart) else lastDownAfter s.log (net.link j).id := by
    rw [hlog, lastDownAfter_snoc, hkind]
  have hsame : event.status = none → statusOps s'.log (net.link j).id = statusOps s.log (net.link j).id := by
    intro hnone
    rw [hlog, statusOps_snoc_of_none (hkind.trans hnone)]
  have hops : ∀ u, event.status = some u → statusOps s'.log (net.link j).id =
      statusOps s.log (net.link j).id ++ [⟨s.now - net.simulationStart, .status u⟩] := by
    intro u hu
    rw [hlog, statusOps_snoc_of_some (hkind.trans hu)]
  have hnow : event.status = some .down → DownAt s'.log (net.link j).id (s.now - net.simulationStart) := by
    intro hdown
    rw [DownAt, hops .down hdown]
    exact hasDown_snoc.2 (.inr ⟨rfl, rfl⟩)
  have honLink : ∀ sent id, Scene.OnLink ⟨[], s'⟩ j sent id → Scene.OnLink ⟨[], s⟩ j sent id := by
    intro sent id hold
    refine hold.frame (fun d hd => hd) ?_
    rw [hlinks]
    generalize event.status = status at hchange
    cases hchange <;> simp [State.setLink]
  have hrecorded : ∀ sent id, Scene.OnLink ⟨[], s'⟩ j sent id →
      SentOver s'.log (net.link j).id id (sent - net.simulationStart) := fun sent id hold =>
    (h.recorded sent id (honLink sent id hold)).mono hgrows
  have hstatus := h.status
  generalize event.status = status at hchange hafter hnow hsame hops
  cases hchange with
  | same _ hunchanged =>
    have hj : (Scene.mk [] s').state.links j = s.links j := congrFun hlinks j
    refine ⟨?_, fun l hl => (h.marked l (hlinks ▸ hl)).mono hgrows, fun t ht => ?_, hrecorded,
      fun sent id hold hdown => ?_, fun sent id hold hthrough c hc hle => ?_⟩
    · rw [hj]
      cases status with
      | none => exact (hsame rfl).symm ▸ hstatus
      | some u =>
        rw [show statusOps (Scene.mk [] s').state.log (net.link j).id = _ from hops u rfl, statusAfter_snoc]
        exact (hunchanged u rfl).symm
    · rw [hj]
      refine h.seen t ?_
      cases status with
      | none =>
        rw [TakenDownAfter, show statusOps (Scene.mk [] s').state.log (net.link j).id = _ from hsame rfl] at ht
        exact ht
      | some u =>
        rw [TakenDownAfter, show statusOps (Scene.mk [] s').state.log (net.link j).id = _ from hops u rfl] at ht
        rcases takenDown_snoc.1 ht with hold | ⟨hdown, hup, -⟩
        · exact hold
        · -- a down event that finds the link down does not take it down
          obtain rfl := LinkOp.status.inj hdown
          have hisDown := (hunchanged .down rfl).symm
          rw [show (s.links j).status.toUpdate = _ from hstatus, show statusAfter (statusOps s.log (net.link j).id) = .up
            from hup] at hisDown
          simp at hisDown
    · rw [hj] at hdown ⊢
      exact h.taken sent id (honLink sent id hold) hdown
    · rw [hj] at hthrough
      rw [show lastDownAfter (Scene.mk [] s').state.log (net.link j).id = _ from hafter] at hc
      split_ifs at hc with hdown
      · -- the link was down already: the packet was sent when it was taken down
        have hisDown : (s.links j).status.isDown :=
          (LinkStatus.isDown_iff_toUpdate _).2 (hunchanged .down (by simp [hdown])).symm
        obtain ⟨l, hl, hle'⟩ := h.taken sent id (honLink sent id hold) hisDown
        obtain rfl : l = sent := Nat.le_antisymm (NetworkLink.le_of_wasDownAfter hthrough hl) hle'
        exact (h.marked l hl).mono hgrows
      · exact (h.apart sent id (honLink sent id hold) hthrough c hc hle).mono hgrows
  | down hup =>
    have hlast : (s'.links j).lastDown = some s.now := by
      rw [hlinks]
      simp [State.setLink]
    refine ⟨?_, fun l hl => ?_, fun t ht => ⟨s.now, hlast, ?_⟩, hrecorded,
      fun sent id hold _ => ⟨s.now, hlast, hsent sent id (honLink sent id hold)⟩, fun sent id hold hthrough c hc hle => ?_⟩
    · rw [show statusOps (Scene.mk [] s').state.log (net.link j).id = _ from hops .down rfl, statusAfter_snoc]
      show (s'.links j).status.toUpdate = .down
      rw [hlinks]
      simp [State.setLink, LinkStatus.toUpdate]
    · obtain rfl := Option.some.inj (hlast.symm.trans hl)
      exact hnow rfl
    · -- no event is later than now
      rw [TakenDownAfter, show statusOps (Scene.mk [] s').state.log (net.link j).id = _ from hops .down rfl] at ht
      rcases takenDown_snoc.1 ht with hold | ⟨-, -, hlt⟩
      · obtain ⟨step, hstep, -, hlt⟩ := hasDown_statusOps.1 hold.hasDown
        exact Nat.lt_of_lt_of_le hlt (hpast.past step hstep)
      · exact hlt
    · obtain rfl : s.now = sent :=
        Nat.le_antisymm (NetworkLink.le_of_wasDownAfter hthrough hlast) (hsent sent id (honLink sent id hold))
      exact hnow rfl
  | up upTx hdown =>
    have hlast : (s'.links j).lastDown = (s.links j).lastDown := by
      rw [hlinks]
      simp [State.setLink]
    have hup : (s'.links j).status.toUpdate = .up := by
      rw [hlinks]
      simp [State.setLink, LinkStatus.toUpdate]
    refine ⟨?_, fun l hl => (h.marked l (hlast ▸ hl)).mono hgrows, fun t ht => ?_, hrecorded, fun sent id hold hdown => ?_,
      fun sent id hold hthrough c hc hle => ?_⟩
    · rw [show statusOps (Scene.mk [] s').state.log (net.link j).id = _ from hops .up rfl, statusAfter_snoc]
      exact hup
    · rw [TakenDownAfter, show statusOps (Scene.mk [] s').state.log (net.link j).id = _ from hops .up rfl] at ht
      rcases takenDown_snoc.1 ht with hold | ⟨hdown, -⟩
      · obtain ⟨l, hl, hlt⟩ := h.seen t hold
        exact ⟨l, hlast.trans hl, hlt⟩
      · simp at hdown
    · have hdown := (LinkStatus.isDown_iff_toUpdate _).1 hdown
      rw [show (Scene.mk [] s').state.links j = s'.links j from rfl, hup] at hdown
      simp at hdown
    · rw [show (Scene.mk [] s').state.links j = s'.links j from rfl, NetworkLink.wasDownAfter, hlast] at hthrough
      rw [show lastDownAfter (Scene.mk [] s').state.log (net.link j).id = _ from hafter, if_neg (by simp)] at hc
      exact (h.apart sent id (honLink sent id hold) hthrough c hc hle).mono hgrows

/-- The packet that arrives was sent at a down event of the link, which was not taken down since. -/
theorem sentAtDown (h : LinkDownInv net σ j) {sent c : Nat} {d : InTransitData} (hheld : (.transit j sent, d) ∈ σ.held)
    (hthrough : (σ.state.links j).wasDownAfter sent = false)
    (hc : lastDownAfter σ.state.log (net.link j).id = some c) (hle : sent - net.simulationStart ≤ c) :
    SentOver σ.state.log (net.link j).id d.id (sent - net.simulationStart) ∧
      DownAt σ.state.log (net.link j).id (sent - net.simulationStart) ∧
      ¬ TakenDownAfter σ.state.log (net.link j).id (sent - net.simulationStart) := by
  have honLink : σ.OnLink j sent d.id := .held sent d hheld
  refine ⟨h.recorded _ _ honLink, h.apart sent _ honLink hthrough c hc hle, fun htaken => ?_⟩
  obtain ⟨l, hl, hlt⟩ := h.seen _ htaken
  have := NetworkLink.le_of_wasDownAfter hthrough hl
  omega

end LinkDownInv

theorem linkStatus_of_isForwarding {kind : SimulationStepKind} (h : kind.isForwarding) (id : String) :
    kind.linkStatus id = none := by
  cases kind <;> simp_all [SimulationStepKind.isForwarding, SimulationStepKind.linkStatus]

namespace Logs
variable {net : InMemoryNetwork} {K : SimulationStepKind → Prop} {s s' : State} {id : String}

theorem statusOps (h : Logs net K s s') (hK : ∀ kind, K kind → kind.linkStatus id = none) :
    statusOps s'.log id = QuicWorkbench.statusOps s.log id := by
  cases h with
  | same heq => rw [heq]
  | step kind hkind heq => rw [heq, statusOps_snoc_of_none (hK kind hkind)]

theorem lastDownAfter (h : Logs net K s s') (hK : ∀ kind, K kind → kind.linkStatus id = none) :
    lastDownAfter s'.log id = QuicWorkbench.lastDownAfter s.log id := by
  cases h with
  | same heq => rw [heq]
  | step kind hkind heq => rw [heq, lastDownAfter_snoc_of_none (hK kind hkind)]

end Logs

namespace DownInv
variable {net : InMemoryNetwork} {σ σ' : Scene} {s s' : State} {spec : NetworkSpec} {j : LinkIx}

theorem effect (h : DownInv net σ) (he : Effect net σ σ') : DownInv net σ' where
  log := h.log.logs he.logs he.linkFrame.now
  onLink j sent id hsent := (h.onLink j sent id (he.onLink hsent)).imp_right fun hle => hle.trans he.linkFrame.now
  links j hj := by
    have hquiet : ∀ kind : SimulationStepKind, kind.isForwarding → kind.linkStatus (net.link j).id = none :=
      fun _ hkind => linkStatus_of_isForwarding hkind _
    exact (h.links j hj).frame h.log (he.linkFrame.linkStatus j) (he.lastDown j) he.logs.grows (he.logs.statusOps hquiet)
      (he.logs.lastDownAfter hquiet) fun _ _ hsent => .inl (he.onLink hsent)

theorem linkEffect (h : DownInv net ⟨[], s⟩) (hj : j < net.links.length) (he : LinkEffect net j s s') :
    DownInv net ⟨[], s'⟩ where
  log := h.log.logs he.logs he.frame.now.ge
  onLink j' sent id hsent := by
    rw [show (Scene.mk [] s').state.now = s.now from he.frame.now]
    rcases he.onLink hsent with hold | ⟨rfl, rfl, -⟩
    · exact h.onLink j' sent id hold
    · exact ⟨hj, Nat.le_refl _⟩
  links j' hj' := by
    have hquiet : ∀ kind : SimulationStepKind, (kind.isForwarding ∨ ∃ p p' s₁, Picks j s p s₁ (.ready p') ∧ s.pending p ∧
        kind = .packetInTransit (p.inTransitStep net j)) → kind.linkStatus (net.link j').id = none := by
      intro kind hkind
      rcases hkind with hkind | ⟨p, p', s₁, -, -, rfl⟩
      · exact linkStatus_of_isForwarding hkind _
      · rfl
    exact (h.links j' hj').frame h.log (he.frame.linkStatus j') (he.lastDown j') he.logs.grows (he.logs.statusOps hquiet)
      (he.logs.lastDownAfter hquiet) fun _ _ hsent => (he.onLink hsent).imp_right And.right

theorem quietEvent (h : DownInv net ⟨[], s⟩) (hnow : s'.now = s.now) (hlinks : s'.links = s.links)
    (hlogs : Logs net (fun kind => ∀ j < net.links.length, kind.linkStatus (net.link j).id = none) s s') :
    DownInv net ⟨[], s'⟩ := by
  have honLink : ∀ j sent id, Scene.OnLink ⟨[], s'⟩ j sent id → Scene.OnLink ⟨[], s⟩ j sent id := fun j sent id hsent =>
    hsent.frame (fun d hd => hd) (by rw [hlinks])
  exact { log := h.log.logs hlogs hnow.ge
          onLink := fun j sent id hsent => hnow.symm ▸ h.onLink j sent id (honLink j sent id hsent)
          links := fun j hj => (h.links j hj).frame h.log (by rw [hlinks]) (by rw [hlinks]) hlogs.grows
            (hlogs.statusOps fun kind hkind => hkind j hj) (hlogs.lastDownAfter fun kind hkind => hkind j hj)
            fun sent id hsent => .inl (honLink j sent id hsent) }

theorem linkEvent (htables : net.Tables spec) (h : DownInv net ⟨[], s⟩) (event : LinkEventPayload) :
    DownInv net ⟨[], s.processLinkEvent net event⟩ := by
  have hf := s.processLinkEvent_frame net event
  have hlogs := s.linkEvent_logs net event
  have honLink : ∀ j sent id, Scene.OnLink ⟨[], s.processLinkEvent net event⟩ j sent id →
      Scene.OnLink ⟨[], s⟩ j sent id := fun j sent id hsent => hsent.frame (fun d hd => hd) (by rw [hf.inTransit])
  refine ⟨h.log.logs hlogs hf.now.ge,
    fun j sent id hsent => hf.now.symm ▸ h.onLink j sent id (honLink j sent id hsent), fun j hj => ?_⟩
  rcases s.processLinkEvent_cases net event with heq | ⟨j₀, s₁, hlookup, hchange, heq⟩
  · rw [heq]
    exact h.links j hj
  · obtain ⟨hj₀, hid⟩ := (htables.linksById _ _).1 hlookup
    have hlog : s₁.log = s.log ∧ s₁.now = s.now := by
      clear heq
      generalize event.status = status at hchange
      cases hchange <;> exact ⟨rfl, rfl⟩
    rw [heq]
    by_cases hjj : j = j₀
    · subst hjj
      refine (h.links j hj).linkChange h.log (fun sent id hsent => (h.onLink j sent id hsent).2) hid hchange ?_ rfl
      simp [State.trackLinkEvent, State.record, hlog]
    · -- an event of another link
      have hne : (net.link j).id ≠ event.linkId := fun hid' =>
        hjj (Option.some.inj (((htables.linksById _ _).2 ⟨hj, hid'⟩).symm.trans hlookup))
      have hlinks : s₁.links j = s.links j := by
        clear heq
        generalize event.status = status at hchange
        cases hchange <;> simp [State.setLink, hjj]
      have hquiet : ∀ kind : SimulationStepKind, (kind = .networkEvent { link := some event, node := none } ∧
          (net.linksById.lookup event.linkId).isSome) → kind.linkStatus (net.link j).id = none := by
        rintro _ ⟨rfl, -⟩
        simp [SimulationStepKind.linkStatus, Ne.symm hne]
      rw [heq] at hlogs
      exact (h.links j hj).frame h.log (congrArg _ hlinks) (congrArg _ hlinks) hlogs.grows (hlogs.statusOps hquiet)
        (hlogs.lastDownAfter hquiet) fun sent id hsent => .inl (honLink j sent id (heq ▸ hsent))

theorem nodeEvent (h : DownInv net ⟨[], s⟩) (event : NodeEventPayload) :
    DownInv net ⟨[], s.processNodeEvent net event⟩ := by
  refine h.quietEvent (s.processNodeEvent_frame net event).now ?_ ((s.nodeEvent_logs net event).mono ?_)
  · rcases s.processNodeEvent_cases net event with heq | ⟨i, s₁, -, hchange, heq⟩
    · rw [heq]
    · rw [heq]
      generalize event.status = status at hchange
      cases hchange <;> split_ifs <;> rfl
  · rintro _ ⟨rfl, -⟩ j -
    rfl

theorem preserved (htables : net.Tables spec) : Preserved net (DownInv net) where
  effect _ _ he h := h.effect he
  link _ _ _ hj he h := h.linkEffect hj he
  linkEvent _ event h := h.linkEvent htables event
  nodeEvent _ event h := h.nodeEvent event
  events _ _ h := h.quietEvent rfl rfl (.same rfl)

theorem initial (net : InMemoryNetwork) (now : Nat) (events : List NetworkEvent) :
    DownInv net ⟨[], net.initialState now events⟩ := by
  have hempty : ∀ j sent id, ¬ Scene.OnLink ⟨[], net.initialState now events⟩ j sent id := by
    intro j sent id h
    cases h with
    | held _ d h => simp at h
    | inTransit e h => simp [InMemoryNetwork.initialState, NetworkLink.new, InboundQueue.new] at h
  refine ⟨.initial net now events, fun j sent id h => absurd h (hempty j sent id), fun j _ => ?_⟩
  exact { status := rfl
          marked := fun l hl => by simp [InMemoryNetwork.initialState, NetworkLink.new] at hl
          seen := fun t ht => by
            obtain ⟨step, hstep, -⟩ := hasDown_statusOps.1 ht.hasDown
            simp [InMemoryNetwork.initialState] at hstep
          recorded := fun sent id h => absurd h (hempty j sent id)
          taken := fun sent id h => absurd h (hempty j sent id)
          apart := fun sent id h => absurd h (hempty j sent id) }

end DownInv

/-! ### What the verifier reports -/

/-- The log has a packet arrive at the node that was sent on the link at the instant of a down event, and the link was not
taken down later, until the packet arrived. -/
def ArrivedSinceDown (log : List SimulationStep) (nodeId linkId : String) (sent : Nat) : Prop :=
  ∃ before arrival p, before ++ [arrival] <+: log ∧ arrival.kind = .packetInNode p ∧ p.nodeId = nodeId ∧
    SentOver before linkId p.packetId sent ∧ DownAt before linkId sent ∧ ¬ TakenDownAfter before linkId sent

/-- The error may be reported; a reception over a link that was down, only of a packet that was sent at the instant of a down
event and arrived before the link was taken down again. -/
def OfflineAtSend (net : InMemoryNetwork) (log : List SimulationStep) (e : NonFatalError) : Prop :=
  MayReport net e ∧ ∀ nodeId linkId sent lastDown, e = .offlinePacketReceive nodeId linkId sent lastDown →
    ArrivedSinceDown log nodeId linkId sent

namespace OfflineAtSend
variable {net : InMemoryNetwork} {log log' : List SimulationStep} {e : NonFatalError}

theorem mono (h : OfflineAtSend net log e) (hle : log <+: log') : OfflineAtSend net log' e := by
  refine ⟨h.1, fun nodeId linkId sent lastDown he => ?_⟩
  obtain ⟨before, arrival, p, hprefix, hrest⟩ := h.2 nodeId linkId sent lastDown he
  exact ⟨before, arrival, p, hprefix.trans hle, hrest⟩

theorem allows (net : InMemoryNetwork) (log : List SimulationStep) : Allows (OfflineAtSend net log) where
  exceedsBufferSize nodeId size usage := ⟨.exceedsBufferSize nodeId size usage, by simp⟩
  downSend nodeId id := ⟨.downSend nodeId id, by simp⟩
  downReceive nodeId id := ⟨.downReceive nodeId id, by simp⟩
  exceedsBandwidth nodeId linkId id max observed := ⟨.exceedsBandwidth nodeId linkId id max observed, by simp⟩

end OfflineAtSend

theorem DownInv.excused {net : InMemoryNetwork} {σ : Scene} (h : DownInv net σ) (log : List SimulationStep) :
    Excused net (OfflineAtSend net log) σ log := by
  intro i j sent d dropped c hheld hthrough hlog hc hle
  subst hlog
  refine ⟨.offlineReceive .., fun nodeId linkId sent' lastDown heq => ?_⟩
  obtain ⟨rfl, rfl, rfl, -⟩ := NonFatalError.offlinePacketReceive.inj heq
  have hj := (h.onLink j sent d.id (.held sent d hheld)).1
  exact ⟨σ.state.log, _, State.packetInNodeStep net i d dropped, List.prefix_rfl, rfl, rfl,
    (h.links j hj).sentAtDown hheld hthrough hc hle⟩

section
variable {spec : NetworkSpec} {events : List NetworkEvent} {net : InMemoryNetwork} {s : State} {order : List String}
  {v : SimulationVerifier} {disableTimeWarping : Bool}

theorem Reaches.offlineAtSend (h : Reaches disableTimeWarping spec events net s)
    (hnew : SimulationVerifier.new order s.log spec = .ok v) : ReplayInv net v (OfflineAtSend net s.log) ⟨[], s⟩ := by
  have htables := h.tables
  have hv := SimulationVerifier.new_tables hnew
  have hk : v.Knows net := SimulationVerifier.knows_of_tables htables hv
  have hallows := OfflineAtSend.allows net
  have hdown := DownInv.preserved htables
  have hpreserved : Preserved net fun σ => DownInv net σ ∧ ReplayInv net v (OfflineAtSend net σ.state.log) σ :=
    { effect := fun σ σ' he hσ => ⟨hdown.effect σ σ' he hσ.1,
        (hσ.2.mono fun e he' => he'.mono he.logs.grows).effect hk htables (hallows _)
          (fun i id hi => ⟨.sharedId i id hi, by simp⟩) (hσ.1.excused _) he⟩
      link := fun j s s' hj he hs => ⟨hdown.link j s s' hj he hs.1,
        (hs.2.linkEffect hk htables (hallows _) hj he).mono fun e he' => he'.mono he.logs.grows⟩
      linkEvent := fun s event hs => ⟨hdown.linkEvent s event hs.1,
        (hs.2.linkEvent hk htables (hallows _)).mono fun e he' => he'.mono (s.linkEvent_logs net event).grows⟩
      nodeEvent := fun s event hs => ⟨hdown.nodeEvent s event hs.1,
        (hs.2.nodeEvent htables (hallows _)).mono fun e he' => he'.mono (s.nodeEvent_logs net event).grows⟩
      events := fun s events hs => ⟨hdown.events s events hs.1, hs.2.events events⟩ }
  exact (hpreserved.reaches (fun now events hnow => ⟨.initial net now events, .initial htables hv now events hnow⟩) h).2

end

/-- Simulator and verifier agree about whether a packet that was sent on a link that was up may be received, exactly if
no down event falls on the instant of the send, or the link is taken down at a later one. In a run, the verifier
reports a reception over a link that was down only of a packet for which that is not so: when it arrives, the log has the
link go down at the instant of its send, and not taken down later. -/
theorem offline_receptions (simulationStart : Nat) (link : NetworkLinkSpec) :
    (∀ (pre post : List TimedLinkOp) (sent : Nat) (data : InTransitData) (delay slot : Nat),
      (pre ++ ⟨sent, .send data delay slot⟩ :: post).Pairwise (fun x y => x.time ≤ y.time) →
      (∀ x ∈ pre ++ ⟨sent, .send data delay slot⟩ :: post, simulationStart ≤ x.time) →
      (LinkWorld.after simulationStart link pre).live.status = .up →
      (((LinkWorld.after simulationStart link (pre ++ ⟨sent, .send data delay slot⟩ :: post)).Lost sent ↔
          (LinkWorld.after simulationStart link (pre ++ ⟨sent, .send data delay slot⟩ :: post)).MustNotReceive
            simulationStart sent) ↔
        ¬ HasDown (· = sent) (pre ++ ⟨sent, .send data delay slot⟩ :: post) ∨
          TakenDown (sent < ·) (pre ++ ⟨sent, .send data delay slot⟩ :: post))) ∧
    ∀ (disableTimeWarping : Bool) (spec : NetworkSpec) (events : List NetworkEvent) (net : InMemoryNetwork) (s : State)
        (order : List String) (v : SimulationVerifier), Reaches disableTimeWarping spec events net s →
      s.generated.Nodup → ClearsUnique net s.log → SimulationVerifier.new order s.log spec = .ok v →
      ∀ nodeId linkId sent lastDown, v.Reports (.offlinePacketReceive nodeId linkId sent lastDown) →
        ArrivedSinceDown s.log nodeId linkId sent := by
  refine ⟨fun pre post sent data delay slot hsorted hstart hup => lost_iff_mustNotReceive_iff hsorted hstart hup, ?_⟩
  intro disableTimeWarping spec events net s order v hreach hgen hclears hnew nodeId linkId sent lastDown hreports
  obtain ⟨verified, hverify, herrors⟩ :=
    (hreach.offlineAtSend hnew).verify hreach.logInv (OfflineAtSend.allows net s.log) hnew hgen hclears
  rw [SimulationVerifier.Reports, hverify] at hreports
  exact (herrors _ hreports).2 nodeId linkId sent lastDown rfl

namespace HostPair

/-- The first link is down at first, and comes up at instant 0. -/
def a₁StartsDown : List NetworkEvent := [linkEvent 0 "a1b" .up]

/-- The link comes up; a packet is sent at the same instant, and arrives. -/
def sendWhenUp : List Action :=
  [.networkEvent] ++ sendFromA 1 ++ [.linkTask 0 0, .advance (Duration.fromMillis 5), .forwarder 0 fun _ => draws 0]

/-- The same from the link's point of view. -/
def downUpSend : List TimedLinkOp := [⟨0, .status .down⟩, ⟨0, .status .up⟩, ⟨0, .send firstPacket 0 0⟩]

end HostPair

/-- The packet is received, and must not be: the verifier reports it. -/
theorem offline_reception_reported :
    (¬ (LinkWorld.after 0 (HostPair.link "a1b" HostPair.a₁ 8000000 0) HostPair.downUpSend).Lost 0 ∧
      (LinkWorld.after 0 (HostPair.link "a1b" HostPair.a₁ 8000000 0) HostPair.downUpSend).MustNotReceive 0 0) ∧
    ∃ net s v, Reaches false (hostPair 8000000 0) HostPair.a₁StartsDown net s ∧
      SimulationVerifier.new ["A", "B"] s.log (hostPair 8000000 0) = .ok v ∧
      v.Reports (.offlinePacketReceive "B" "a1b" 0 0) := by
  refine ⟨⟨by simp [LinkWorld.Lost]; decide, ⟨0, rfl, Nat.le_refl _⟩⟩, ?_⟩
  obtain ⟨net, s, hreach, hs⟩ := exists_reaches_of_simulate (hostPair 8000000 0) HostPair.a₁StartsDown HostPair.sendWhenUp
    (fun _ s => SimulationVerifier.verifies (hostPair 8000000 0) ["A", "B"] s.log fun verified =>
      decide (.offlinePacketReceive "B" "a1b" 0 0 ∈ verified.nonFatalErrors))
    (by decide +kernel)
  obtain ⟨v, verified, hnew, hverify, hP⟩ := SimulationVerifier.exists_verified _ _ _ _ hs
  exact ⟨net, s, v, hreach, hnew, by simpa [SimulationVerifier.Reports, hverify] using hP⟩

/-- A link that is up, and one that went down at the instant of the send. -/
theorem offline_receptions_hostPair :
    ((LinkWorld.after 0 (HostPair.link "a1b" HostPair.a₁ 8000000 0) [⟨0, .send HostPair.firstPacket 0 0⟩]).Lost 0 ↔
      (LinkWorld.after 0 (HostPair.link "a1b" HostPair.a₁ 8000000 0) [⟨0, .send HostPair.firstPacket 0 0⟩]).MustNotReceive
        0 0) ∧
    ∃ net s v, Reaches false (hostPair 8000000 0) HostPair.a₁StartsDown net s ∧
      v.Reports (.offlinePacketReceive "B" "a1b" 0 0) ∧ SimulationVerifier.new ["A", "B"] s.log (hostPair 8000000 0) = .ok v ∧
      ArrivedSinceDown s.log "B" "a1b" 0 := by
  obtain ⟨hlink, hrun⟩ := offline_receptions 0 (HostPair.link "a1b" HostPair.a₁ 8000000 0)
  refine ⟨(hlink [] [] 0 HostPair.firstPacket 0 0 (List.pairwise_singleton ..)
    (by simp) rfl).2 (.inl (by simp [HasDown])), ?_⟩
  obtain ⟨net, s, hreach, hs⟩ := exists_reaches_of_simulate (hostPair 8000000 0) HostPair.a₁StartsDown HostPair.sendWhenUp
    (fun _ s => decide s.generated.Nodup && SimulationVerifier.verifies (hostPair 8000000 0) ["A", "B"] s.log fun verified =>
      decide (.offlinePacketReceive "B" "a1b" 0 0 ∈ verified.nonFatalErrors))
    (by decide +kernel)
  rw [Bool.and_eq_true, decide_eq_true_eq] at hs
  obtain ⟨hgen, hverifies⟩ := hs
  obtain ⟨v, verified, hnew, hverify, hP⟩ := SimulationVerifier.exists_verified _ _ _ _ hverifies
  have hreports : v.Reports (.offlinePacketReceive "B" "a1b" 0 0) := by
    simpa [SimulationVerifier.Reports, hverify] using hP
  have hunique := hreach.tables.idUnique (by decide)
  exact ⟨net, s, v, hreach, hreports, hnew,
    hrun _ _ _ net s _ v hreach hgen (fun _ _ _ _ _ _ _ => hunique _) hnew "B" "a1b" 0 0 hreports⟩

end QuicWorkbench
