import QuicWorkbench.Proofs.Stays

/-!
# Ready to send

`sendCall` is the call of `NetworkLink::send` that the next poll of a link's task makes. Its sanity
checks are about the pacer and the link's status, and no packet should be sent from a node that is down.

The pacer is never the problem: a task that got past its sleep is on a link that can send, and nobody
else sends on it (`Paced`). The statuses are checked before the task yields to the preferred links, and
not again after it, so an event in between can break them (`YieldInv`); and the status of the node is not
checked at all on the fast path, nor again once the node's up-notifier has fired (`passesUnchecked`).
-/

namespace QuicWorkbench

/-- The observation is of a call of `send`: the packet was sent, or the call panicked. -/
def Observation.ofSend : Observation → Bool
  | .sent .. | .sendPanicked .. => true
  | _ => false

namespace State

/-- The packet was not handled, and no clear-buffer event took it: it will be sent once it is picked. -/
def pending (s : State) (p : OutgoingPacket) : Bool := !s.handled p.stay && !s.clearedFromBuffer p

/-- The call of `send` in the move, with the state that it is made in. -/
def Move.sendCall (s : State) : Move → Option (State × OutgoingPacket)
  | .ready p => if s.pending p then some (s.setHandled p.stay, p) else none
  | .await _ | .panic => none

/-- The call of `send` that the next poll of the link's task makes. -/
def sendCall (s : State) (j : LinkIx) : Option (State × OutgoingPacket) :=
  match s.linkTasks j, (s.links j).outgoingQueue with
  | .next, [] => none
  | .next, packet :: queue =>
    let s := s.dequeue j queue
    (s.takePacket j packet).sendCall s
  | task, _ => (s.resume j task).bind (·.sendCall s)

/-- The poll is the call, and what comes of it. -/
theorem processLinkQueue_of_sendCall {net : InMemoryNetwork} {s s₁ : State} {j : LinkIx} {p : OutgoingPacket}
    (h : s.sendCall j = some (s₁, p)) (slot : Nat) :
    s.processLinkQueue net j slot = some (match s₁.send net j p slot with
      | .ok s => s.setLinkTask j .next
      | .error s => (s.observe (.sendPanicked j p)).panicLinkTask j) := by
  have hperform : ∀ (s₀ : State) (m : Move), m.sendCall s₀ = some (s₁, p) →
      s₀.perform net j slot m = match s₁.send net j p slot with
        | .ok s => s.setLinkTask j .next
        | .error s => (s.observe (.sendPanicked j p)).panicLinkTask j := by
    intro s₀ m hm
    cases m with
    | await task => simp [Move.sendCall] at hm
    | panic => simp [Move.sendCall] at hm
    | ready q =>
      rw [Move.sendCall] at hm
      split_ifs at hm with hpending
      obtain ⟨rfl, rfl⟩ := by simpa using hm
      obtain ⟨hhandled, hcleared⟩ : s₀.handled q.stay = false ∧ s₀.clearedFromBuffer q = false := by
        simpa [pending] using hpending
      have hcleared : (s₀.setHandled q.stay).clearedFromBuffer q = false := hcleared
      rw [perform, handlePacket, if_neg (by simp [hhandled])]
      cases hsend : State.send net (s₀.setHandled q.stay) j q slot <;> simp [hcleared, hsend]
  unfold sendCall at h
  unfold processLinkQueue
  cases htask : s.linkTasks j with
  | next =>
    cases hqueue : (s.links j).outgoingQueue with
    | nil => simp [htask, hqueue] at h
    | cons q queue =>
      simp only [htask, hqueue] at h ⊢
      exact congrArg some (hperform _ _ h)
  | _ =>
    simp only [htask] at h ⊢
    obtain ⟨m, hm, hcall⟩ := Option.bind_eq_some_iff.1 h
    rw [hm]
    exact congrArg some (hperform _ _ hcall)

theorem sendCall_picks {s s₁ : State} {j : LinkIx} {p : OutgoingPacket} (h : s.sendCall j = some (s₁, p)) :
    ∃ q s₀, Picks j s q s₀ (.ready p) ∧ s.pending q ∧ s₁ = s₀.setHandled q.stay := by
  have hcall : ∀ (s₀ : State) (m : Move), m.sendCall s₀ = some (s₁, p) →
      m = .ready p ∧ s₀.pending p ∧ s₁ = s₀.setHandled p.stay := by
    intro s₀ m hm
    cases m with
    | await task => simp [Move.sendCall] at hm
    | panic => simp [Move.sendCall] at hm
    | ready q =>
      rw [Move.sendCall] at hm
      split_ifs at hm with hpending
      obtain ⟨rfl, rfl⟩ := by simpa using hm
      exact ⟨rfl, hpending, rfl⟩
  unfold sendCall at h
  split at h
  · simp at h
  · rename_i q queue htask hqueue
    obtain ⟨hm, hpending, rfl⟩ := hcall _ _ h
    have hpick : Picks j s q (s.dequeue j queue) (.ready p) := .take queue htask hqueue rfl hm.symm
    obtain ⟨links, rfl⟩ := hpick.ready
    exact ⟨q, _, hpick, hpending, rfl⟩
  · rename_i hnext _ _
    obtain ⟨m, hm, hcall'⟩ := Option.bind_eq_some_iff.1 h
    obtain ⟨rfl, hpending, rfl⟩ := hcall _ _ hcall'
    obtain ⟨q, hq⟩ : ∃ q, (s.linkTasks j).packet? = some q := by
      cases htask : s.linkTasks j <;> simp_all [resume, LinkTask.packet?]
    have hpick : Picks j s q s (.ready p) := .resume rfl hq hm
    obtain ⟨links, rfl⟩ := hpick.ready
    exact ⟨q, s, hpick, hpending, rfl⟩

theorem sendCall_of_picks {s s₁ : State} {j : LinkIx} {p p' : OutgoingPacket} (h : Picks j s p s₁ (.ready p'))
    (hpending : s.pending p) : s.sendCall j = some (s₁.setHandled p.stay, p') := by
  have hcall : (Move.ready p').sendCall s₁ = some (s₁.setHandled p.stay, p') := by
    obtain ⟨links, rfl⟩ := h.ready
    obtain ⟨queue, rfl⟩ := h.eq_dequeue
    exact if_pos hpending
  cases h with
  | take queue htask hqueue hs hm =>
    rw [sendCall, htask, hqueue, ← hcall, hm, hs]
  | resume hs htask hm =>
    subst hs
    unfold sendCall
    split
    · rename_i hnext _
      simp [hnext, LinkTask.packet?] at htask
    · rename_i hnext _
      simp [hnext, LinkTask.packet?] at htask
    · rw [hm]
      exact hcall

/-- The calls are those that the history tells of: a poll makes one exactly if it leaves the observation that a packet
was sent, or that the call panicked. -/
theorem sendCall_isSome_iff {net : InMemoryNetwork} {s s' : State} {j : LinkIx} {slot : Nat}
    (h : s.processLinkQueue net j slot = some s') :
    (s.sendCall j).isSome ↔ ∃ o : Observation, o.ofSend ∧ s'.history = s.history ++ [o] := by
  constructor
  · intro hsome
    obtain ⟨⟨s₁, p⟩, hcall⟩ := Option.isSome_iff_exists.1 hsome
    obtain ⟨q, s₀, hpick, -, rfl⟩ := sendCall_picks hcall
    obtain ⟨queue, rfl⟩ := hpick.eq_dequeue
    obtain rfl := Option.some.inj (h.symm.trans (processLinkQueue_of_sendCall hcall slot))
    unfold send
    split_ifs
    · exact ⟨.sendPanicked j p, rfl, rfl⟩
    · cases NetworkLink.applyCongestion p.anomalies p.data with
      | none => exact ⟨.sendPanicked j p, rfl, rfl⟩
      | some data => exact ⟨.sent s.now j { p with data }, rfl, rfl⟩
  · rintro ⟨o, ho, hhistory⟩
    cases processLinkQueue_effect h with
    | park p s₁ task hp =>
      obtain ⟨queue, rfl⟩ := hp.eq_dequeue
      simp [setLinkTask, dequeue, setLink] at hhistory
    | discard p p' s₁ hp =>
      obtain ⟨queue, rfl⟩ := hp.eq_dequeue
      simp [setLinkTask, dequeue, setLink, observe] at hhistory
      simp [← hhistory, Observation.ofSend] at ho
    | clear p p' s₁ hp =>
      obtain ⟨queue, rfl⟩ := hp.eq_dequeue
      simp [setLinkTask, dequeue, setLink, observe, setHandled, trackDroppedByBufferClearEvent, trackDropped, record]
        at hhistory
      simp [← hhistory, Observation.ofSend] at ho
    | send p p' s₁ data slot' hp hhandled hcleared =>
      rw [sendCall_of_picks hp (by simp [pending, hhandled, hcleared])]
      rfl
    | panicSend p p' s₁ hp hhandled hcleared =>
      rw [sendCall_of_picks hp (by simp [pending, hhandled, hcleared])]
      rfl

/-! ### What a move has checked -/

/-- The link can send when the task goes on, or will be able to when its sleep ends. -/
def PacedTask (s : State) (j : LinkIx) : LinkTask → Prop
  | .sleepBandwidth _ deadline => ∀ done, (s.links j).pacer.lastSend = some done → done ≤ deadline
  | .sleepLinkUp .. | .sleepNodeUp .. | .yielding _ => (s.links j).pacer.canSend s.now
  | .next | .panicked => True

/-- The move is past the waits of `sleep_until_ready_to_send`. -/
def Move.Past (m : Move) : Prop := (∃ p, m = .ready p) ∨ ∃ p, m = .await (.yielding p)

/-- What holds after a move: a task that waits is paced, and one that is past the waits with an unhandled
packet has found the pacer ready, the link up, and the node up too, unless it is `unchecked`. -/
structure Move.Checked (s : State) (j : LinkIx) (p : OutgoingPacket) (unchecked : Prop) (m : Move) : Prop where
  paced : ∀ task, m = .await task → PacedTask s j task
  past : m.Past → s.handled p.stay = false → (s.links j).status = .up ∧ (s.links j).pacer.canSend s.now ∧
    ((s.nodes p.srcNode).isDown = false ∨ unchecked)

variable {s s₁ : State} {j : LinkIx} {p : OutgoingPacket} {unchecked : Prop}

theorem not_past_of_sleep {task : LinkTask} (h : ∀ p, task ≠ .yielding p) : ¬ (Move.await task).Past := by
  rintro (⟨q, hq⟩ | ⟨q, hq⟩)
  · simp at hq
  · exact h q (Move.await.inj hq)

theorem yieldToPreferred_checked (hup : (s.links j).status = .up) (hcan : (s.links j).pacer.canSend s.now)
    (hnode : (s.nodes p.srcNode).isDown = false ∨ unchecked) : (s.yieldToPreferred j p).Checked s j p unchecked where
  paced task htask := by
    unfold yieldToPreferred at htask
    split at htask
    · simp at htask
    · dsimp only at htask
      split_ifs at htask
      obtain rfl := Move.await.inj htask
      exact hcan
  past _ _ := ⟨hup, hcan, hnode⟩

/-- A handled packet goes right through to be discarded. -/
theorem yieldToPreferred_checked_of_handled (h : s.handled p.stay) :
    (s.yieldToPreferred j p).Checked s j p unchecked where
  paced task htask := by
    unfold yieldToPreferred at htask
    split at htask
    · simp at htask
    · simp [h] at htask
  past _ hun := by rw [h] at hun; exact Bool.noConfusion hun

theorem recheckLink_checked (hcan : (s.links j).pacer.canSend s.now)
    (hnode : (s.links j).status = .up → (s.nodes p.srcNode).isDown = false ∨ unchecked) :
    (s.recheckLink j p).Checked s j p unchecked := by
  unfold recheckLink
  split
  · rename_i hup
    exact yieldToPreferred_checked hup hcan (hnode hup)
  · refine ⟨fun task htask => ?_, fun h => absurd h (not_past_of_sleep (by simp))⟩
    obtain rfl := Move.await.inj htask
    exact hcan

theorem waitForNode_checked (hcan : (s.links j).pacer.canSend s.now) :
    (s.waitForNode j p).Checked s j p unchecked := by
  unfold waitForNode
  split
  · refine ⟨fun task htask => ?_, fun h => absurd h (not_past_of_sleep (by simp))⟩
    obtain rfl := Move.await.inj htask
    exact hcan
  · rename_i hnode
    refine recheckLink_checked hcan fun _ => .inl ?_
    unfold NodeStatus.notifierForNodeUp at hnode
    unfold NodeState.isDown
    split at hnode
    · rfl
    · simp at hnode

theorem waitForLink_checked (hcan : (s.links j).pacer.canSend s.now) :
    (s.waitForLink j p).Checked s j p unchecked := by
  unfold waitForLink
  split
  · refine ⟨fun task htask => ?_, fun h => absurd h (not_past_of_sleep (by simp))⟩
    obtain rfl := Move.await.inj htask
    exact hcan
  · exact waitForNode_checked hcan

theorem select_checked {done : Bool} {go : Move} {pending : LinkTask} (hgo : done → go.Checked s j p unchecked)
    (hpending : PacedTask s j pending) (hsleep : ∀ p, pending ≠ .yielding p) :
    (s.select j p done go pending).Checked s j p unchecked := by
  unfold select
  split_ifs with hhandled hdone
  · exact yieldToPreferred_checked_of_handled hhandled
  · exact hgo hdone
  · refine ⟨fun task htask => ?_, fun h => absurd h (not_past_of_sleep hsleep)⟩
    obtain rfl := Move.await.inj htask
    exact hpending

theorem canSend_iff {pacer : PacketPacer} {now : Nat} :
    pacer.canSend now ↔ ∀ done, pacer.lastSend = some done → done ≤ now := by
  unfold PacketPacer.canSend
  cases pacer.lastSend <;> simp

theorem pollSleepBandwidth_checked {deadline : Nat}
    (hpaced : ∀ done, (s.links j).pacer.lastSend = some done → done ≤ deadline) :
    (s.pollSleepBandwidth j p deadline).Checked s j p unchecked := by
  refine select_checked (fun hdone => waitForLink_checked (canSend_iff.2 fun done hlast => ?_)) hpaced (by simp)
  exact (hpaced done hlast).trans (of_decide_eq_true hdone)

/-- The sleep lasts until the last packet is sent. -/
theorem le_durationUntilCanSend {pacer : PacketPacer} {now done : Nat} (h : pacer.lastSend = some done) :
    done ≤ now + pacer.durationUntilCanSend now := by
  simp only [PacketPacer.durationUntilCanSend, h]
  omega

theorem takePacket_checked (s : State) (j : LinkIx) (p : OutgoingPacket) : (s.takePacket j p).Checked s j p
    ((s.links j).hasBandwidthAvailable (!(s.linkTasks j).holdsPermit) s.now) := by
  unfold takePacket
  by_cases hb : (s.links j).hasBandwidthAvailable (!(s.linkTasks j).holdsPermit) s.now
  · rw [if_pos hb]
    have hb' := hb
    unfold NetworkLink.hasBandwidthAvailable at hb'
    split_ifs at hb' with hno
    refine yieldToPreferred_checked ?_ hb' (.inr hb)
    cases hs : (s.links j).status with
    | up => rfl
    | down upRx => simp [hs, LinkStatus.isDown] at hno
  · rw [if_neg hb, sleepUntilReadyToSend]
    simp only [hb]
    exact pollSleepBandwidth_checked fun done hlast => le_durationUntilCanSend hlast

/-- The packet that the next poll of the link's task gets past the waits without a check that its node
is up: on the fast path, or after the node's up-notifier has fired. -/
def passesUnchecked (s : State) (j : LinkIx) : Option OutgoingPacket :=
  match s.linkTasks j, (s.links j).outgoingQueue with
  | .next, p :: _ => if (s.links j).hasBandwidthAvailable true s.now then some p else none
  | .sleepNodeUp p upRx, _ => if s.oneshots.signalled upRx ∧ (s.links j).status = .up then some p else none
  | _, _ => none

end State

/-- The pacer of a link is ready when its task gets to send. -/
def Paced (s : State) : Prop := ∀ j, State.PacedTask s j (s.linkTasks j)

open State in
theorem Picks.checked {s s₁ : State} {j : LinkIx} {p : OutgoingPacket} {m : Move} (h : Picks j s p s₁ m)
    (hpaced : Paced s) : s.linkTasks j = .yielding p ∨ m.Checked s₁ j p (s.passesUnchecked j = some p) := by
  have hj := hpaced j
  cases h with
  | take queue htask hqueue hs hm =>
    right
    rw [hm]
    have hb : s.passesUnchecked j = some p ↔ (s₁.links j).hasBandwidthAvailable (!(s₁.linkTasks j).holdsPermit) s₁.now := by
      subst hs
      simp [passesUnchecked, htask, hqueue, dequeue, setLink, NetworkLink.hasBandwidthAvailable, LinkTask.holdsPermit]
    rw [hb]
    exact takePacket_checked s₁ j p
  | resume hs htask hm =>
    subst hs
    cases htask' : s₁.linkTasks j with
    | next => simp [htask', LinkTask.packet?] at htask
    | panicked => simp [htask', LinkTask.packet?] at htask
    | yielding q =>
      rw [htask'] at htask
      exact .inl (congrArg _ (Option.some.inj htask))
    | sleepBandwidth q deadline =>
      rw [htask'] at htask hm hj
      obtain rfl := Option.some.inj htask
      obtain rfl := Option.some.inj hm
      exact .inr (pollSleepBandwidth_checked hj)
    | sleepLinkUp q upRx =>
      rw [htask'] at htask hm hj
      obtain rfl := Option.some.inj htask
      obtain rfl := Option.some.inj hm
      exact .inr (select_checked (fun _ => waitForNode_checked hj) hj (by simp))
    | sleepNodeUp q upRx =>
      rw [htask'] at htask hm hj
      obtain rfl := Option.some.inj htask
      obtain rfl := Option.some.inj hm
      refine .inr (select_checked (fun hsignalled => recheckLink_checked hj fun hup => .inr ?_) hj (by simp))
      simp [passesUnchecked, htask', hsignalled, hup]

theorem State.yieldToPreferred_await {s : State} {j : LinkIx} {p : OutgoingPacket} {task : LinkTask}
    (h : s.yieldToPreferred j p = .await task) :
    s.handled p.stay = false ∧ ∃ links, task = .yielding { p with preferredLinks := links } := by
  unfold yieldToPreferred at h
  split at h
  · simp at h
  · dsimp only at h
    split_ifs at h with hcond
    exact ⟨by simpa using hcond.2, _, (Move.await.inj h).symm⟩

theorem Picks.of_yielding {s s₁ : State} {j : LinkIx} {p : OutgoingPacket} {m : State.Move} (h : Picks j s p s₁ m)
    (hyield : s.linkTasks j = .yielding p) : s₁ = s ∧ m = s.yieldToPreferred j p := by
  cases h with
  | take queue htask => simp [htask] at hyield
  | resume hs htask hm =>
    rw [hyield] at hm
    exact ⟨hs, (Option.some.inj hm).symm⟩

/-! ### Preservation -/

/-- What the effects of all tasks but the link tasks leave as it is. -/
structure LinkFrame (s s' : State) : Prop where
  now : s.now ≤ s'.now
  handled : s'.handled = s.handled
  linkTasks : s'.linkTasks = s.linkTasks
  nodeStatus : ∀ i, (s'.nodes i).status = (s.nodes i).status
  lastBufferClear : ∀ i, (s'.nodes i).lastBufferClear = (s.nodes i).lastBufferClear
  linkStatus : ∀ j, (s'.links j).status = (s.links j).status
  pacer : ∀ j, (s'.links j).pacer = (s.links j).pacer

theorem Quiet.linkFrame {s s' : State} (h : Quiet s s') : LinkFrame s s' :=
  ⟨h.now, h.handled, h.linkTasks, h.nodeStatus, h.lastBufferClear, h.linkStatus, h.pacer⟩

theorem StayEffect.linkFrame {net : InMemoryNetwork} {s s' : State} (h : StayEffect net s s') : LinkFrame s s' := by
  cases h with
  | accept i d buffer =>
    refine ⟨Nat.le_refl _, rfl, rfl, fun i' => ?_, fun i' => ?_, fun j => rfl, fun j => rfl⟩ <;>
      by_cases hi : i' = i <;> simp [State.accept, State.pushOutbound, State.observe, State.setNode, hi]
  | acceptInVain i d buffer =>
    refine ⟨Nat.le_refl _, rfl, rfl, fun i' => ?_, fun i' => ?_, fun j => rfl, fun j => rfl⟩ <;>
      by_cases hi : i' = i <;> simp [State.accept, State.observe, State.setNode, hi]
  | offer i packet outbound links rolls =>
    obtain ⟨links', heq, hlinks⟩ := State.pushCopies_spec net i packet links links rolls
      (s.takeOutbound i packet outbound links)
    rw [heq]
    refine ⟨Nat.le_refl _, rfl, rfl, fun i' => ?_, fun i' => ?_, fun j => ?_, fun j => ?_⟩
    · by_cases hi : i' = i <;> simp [State.takeOutbound, State.observe, State.setNode, hi]
    · by_cases hi : i' = i <;> simp [State.takeOutbound, State.observe, State.setNode, hi]
    all_goals
      obtain ⟨new, hj, -⟩ := hlinks j
      simp [hj, State.takeOutbound, State.observe, State.setNode]
  | panicOffer i packet outbound links done rest j rolls =>
    obtain ⟨links', heq, hlinks⟩ := State.pushCopies_spec net i packet links done rolls
      (s.takeOutbound i packet outbound links)
    rw [heq]
    refine ⟨Nat.le_refl _, rfl, rfl, fun i' => ?_, fun i' => ?_, fun j => ?_, fun j => ?_⟩
    · by_cases hi : i' = i <;>
        simp [State.takeOutbound, State.observe, State.endNodeTask, State.setNodeTask, State.setNode, hi]
    · by_cases hi : i' = i <;>
        simp [State.takeOutbound, State.observe, State.endNodeTask, State.setNodeTask, State.setNode, hi]
    all_goals
      obtain ⟨new, hj, -⟩ := hlinks j
      simp [hj, State.takeOutbound, State.observe, State.endNodeTask, State.setNodeTask, State.setNode]
  | endNodeTask i task =>
    refine ⟨Nat.le_refl _, rfl, rfl, fun i' => ?_, fun i' => ?_, fun j => rfl, fun j => rfl⟩ <;>
      by_cases hi : i' = i <;> simp [State.endNodeTask, State.setNodeTask, State.setNode, hi]

theorem Effect.linkFrame {net : InMemoryNetwork} {σ σ' : Scene} (h : Effect net σ σ') : LinkFrame σ.state σ'.state := by
  rcases h.quiet_or_stay with hq | hs
  · exact hq.linkFrame
  · exact hs.linkFrame

/-- What an iteration of a link's task leaves as it is. -/
structure LinkEffectFrame (j : LinkIx) (s s' : State) : Prop where
  now : s'.now = s.now
  handled : ∀ k, s'.handled k = false → s.handled k = false
  linkTasks : ∀ j', j' ≠ j → s'.linkTasks j' = s.linkTasks j'
  nodeStatus : ∀ i, (s'.nodes i).status = (s.nodes i).status
  lastBufferClear : ∀ i, (s'.nodes i).lastBufferClear = (s.nodes i).lastBufferClear
  linkStatus : ∀ j', (s'.links j').status = (s.links j').status
  pacer : ∀ j', j' ≠ j → (s'.links j').pacer = (s.links j').pacer

theorem LinkEffect.frame {net : InMemoryNetwork} {s s' : State} {j : LinkIx} (h : LinkEffect net j s s') :
    LinkEffectFrame j s s' := by
  have hset : ∀ {k k' : Nat}, Function.update s.handled k true k' = false → s.handled k' = false := fun {k k'} hk => by
    by_cases heq : k' = k
    · simp [heq] at hk
    · rwa [Function.update_of_ne heq] at hk
  cases h with
  | park p s₁ task hp =>
    obtain ⟨queue, rfl⟩ := hp.eq_dequeue
    refine ⟨rfl, fun k hk => hk, fun j' hj => ?_, fun i => rfl, fun i => rfl, fun j' => ?_, fun j' hj => ?_⟩
    · simp [State.setLinkTask, State.dequeue, State.setLink, hj]
    · by_cases hj : j' = j <;> simp [State.setLinkTask, State.dequeue, State.setLink, hj]
    · simp [State.setLinkTask, State.dequeue, State.setLink, hj]
  | discard p p' s₁ hp =>
    obtain ⟨queue, rfl⟩ := hp.eq_dequeue
    refine ⟨rfl, fun k hk => hk, fun j' hj => ?_, fun i => rfl, fun i => rfl, fun j' => ?_, fun j' hj => ?_⟩
    · simp [State.setLinkTask, State.observe, State.dequeue, State.setLink, hj]
    · by_cases hj : j' = j <;> simp [State.setLinkTask, State.observe, State.dequeue, State.setLink, hj]
    · simp [State.setLinkTask, State.observe, State.dequeue, State.setLink, hj]
  | clear p p' s₁ hp =>
    obtain ⟨queue, rfl⟩ := hp.eq_dequeue
    refine ⟨rfl, fun k hk => hset hk, fun j' hj => ?_, fun i => rfl, fun i => rfl, fun j' => ?_, fun j' hj => ?_⟩
    · simp [State.setLinkTask, State.observe, State.dequeue, State.setLink, State.setHandled,
        State.trackDroppedByBufferClearEvent, State.trackDropped, State.record, hj]
    · by_cases hj : j' = j <;> simp [State.setLinkTask, State.observe, State.dequeue, State.setLink, State.setHandled,
        State.trackDroppedByBufferClearEvent, State.trackDropped, State.record, hj]
    · simp [State.setLinkTask, State.observe, State.dequeue, State.setLink, State.setHandled,
        State.trackDroppedByBufferClearEvent, State.trackDropped, State.record, hj]
  | send p p' s₁ data slot hp =>
    obtain ⟨queue, rfl⟩ := hp.eq_dequeue
    obtain ⟨links, rfl⟩ := hp.ready
    refine ⟨rfl, fun k hk => hset hk, fun j' hj => ?_, fun i => ?_, fun i => ?_, fun j' => ?_, fun j' hj => ?_⟩
    · simp [State.setLinkTask, State.observe, State.dequeue, State.setLink, State.setHandled,
        State.transmit, State.setNode, State.trackPacketInTransit, State.record, hj]
    · by_cases hi : i = p.srcNode <;> simp [State.setLinkTask, State.observe, State.dequeue, State.setLink,
        State.setHandled, State.transmit, State.setNode, State.trackPacketInTransit, State.record, hi]
    · by_cases hi : i = p.srcNode <;> simp [State.setLinkTask, State.observe, State.dequeue, State.setLink,
        State.setHandled, State.transmit, State.setNode, State.trackPacketInTransit, State.record, hi]
    · by_cases hj : j' = j <;> simp [State.setLinkTask, State.observe, State.dequeue, State.setLink, State.setHandled,
        State.transmit, State.setNode, State.trackPacketInTransit, State.record, hj]
    · simp [State.setLinkTask, State.observe, State.dequeue, State.setLink, State.setHandled,
        State.transmit, State.setNode, State.trackPacketInTransit, State.record, hj]
  | panicSend p p' s₁ hp =>
    obtain ⟨queue, rfl⟩ := hp.eq_dequeue
    refine ⟨rfl, fun k hk => hset hk, fun j' hj => ?_, fun i => rfl, fun i => rfl, fun j' => ?_, fun j' hj => ?_⟩
    · simp [State.panicLinkTask, State.setLinkTask, State.observe, State.dequeue, State.setLink, State.setHandled, hj]
    · by_cases hj : j' = j <;>
        simp [State.panicLinkTask, State.setLinkTask, State.observe, State.dequeue, State.setLink, State.setHandled, hj]
    · simp [State.panicLinkTask, State.setLinkTask, State.observe, State.dequeue, State.setLink, State.setHandled, hj]

theorem LinkEffect.task_cases {net : InMemoryNetwork} {s s' : State} {j : LinkIx} (h : LinkEffect net j s s') :
    s'.linkTasks j = .next ∨ s'.linkTasks j = .panicked ∨
      ∃ p s₁, Picks j s p s₁ (.await (s'.linkTasks j)) ∧ s' = s₁.setLinkTask j (s'.linkTasks j) := by
  cases h with
  | park p s₁ task hp =>
    have htask : (s₁.setLinkTask j task).linkTasks j = task := by simp [State.setLinkTask]
    rw [htask]
    exact .inr (.inr ⟨p, s₁, hp, rfl⟩)
  | discard => exact .inl (by simp [State.setLinkTask])
  | clear => exact .inl (by simp [State.setLinkTask])
  | send => exact .inl (by simp [State.setLinkTask])
  | panicSend => exact .inr (.inl (by simp [State.panicLinkTask, State.setLinkTask]))

namespace Paced
variable {net : InMemoryNetwork} {s s' : State}

theorem task (hpacer : (s'.links j).pacer = (s.links j).pacer) (hnow : s.now ≤ s'.now) {task : LinkTask}
    (h : State.PacedTask s j task) : State.PacedTask s' j task := by
  cases task with
  | next => trivial
  | panicked => trivial
  | sleepBandwidth p deadline =>
    intro done hdone
    rw [hpacer] at hdone
    exact h done hdone
  | sleepLinkUp p upRx =>
    show (s'.links j).pacer.canSend s'.now = true
    rw [hpacer, State.canSend_iff]
    exact fun done hdone => (State.canSend_iff.1 h done hdone).trans hnow
  | sleepNodeUp p upRx =>
    show (s'.links j).pacer.canSend s'.now = true
    rw [hpacer, State.canSend_iff]
    exact fun done hdone => (State.canSend_iff.1 h done hdone).trans hnow
  | yielding p =>
    show (s'.links j).pacer.canSend s'.now = true
    rw [hpacer, State.canSend_iff]
    exact fun done hdone => (State.canSend_iff.1 h done hdone).trans hnow

theorem frame (h : Paced s) (hf : LinkFrame s s') : Paced s' := fun j => by
  rw [hf.linkTasks]
  exact task (hf.pacer j) hf.now (h j)

theorem event (h : Paced s) (hf : State.EventFrame s s') : Paced s' := fun j => by
  rw [hf.linkTasks]
  exact task (hf.pacer j) hf.now.ge (h j)

theorem linkEffect (h : Paced s) {j : LinkIx} (he : LinkEffect net j s s') : Paced s' := by
  intro j'
  have hf := he.frame
  by_cases hj : j' = j
  · subst hj
    rcases he.task_cases with hnext | hpanicked | ⟨p, s₁, hp, hs'⟩
    · rw [hnext]; trivial
    · rw [hpanicked]; trivial
    · have hpaced : State.PacedTask s₁ j' (s'.linkTasks j') := by
        rcases hp.checked h with hyield | hchecked
        · -- yielding once more
          obtain ⟨rfl, hm⟩ := hp.of_yielding hyield
          obtain ⟨-, links, htask⟩ := State.yieldToPreferred_await hm.symm
          have hj := h j'
          rw [hyield] at hj
          rw [htask]
          exact hj
        · exact hchecked.paced _ rfl
      rw [hs'] at hpaced ⊢
      exact hpaced
  · rw [hf.linkTasks j' hj]
    exact task (hf.pacer j' hj) hf.now.ge (h j')

end Paced

/-! ### Packets that a task yields with -/

/-- The packet that the link's task yields with, and will send if no other link does. -/
def State.yieldingPacket (s : State) (j : LinkIx) : Option OutgoingPacket :=
  match s.linkTasks j with
  | .yielding p => if s.pending p then some p else none
  | _ => none

theorem State.yieldingPacket_eq_some {s : State} {j : LinkIx} {p : OutgoingPacket} :
    s.yieldingPacket j = some p ↔ s.linkTasks j = .yielding p ∧ s.pending p := by
  unfold yieldingPacket
  cases htask : s.linkTasks j with
  | yielding q =>
    constructor
    · intro h
      simp only at h
      split_ifs at h with hpending
      obtain rfl := Option.some.inj h
      exact ⟨rfl, hpending⟩
    · rintro ⟨heq, hpending⟩
      obtain rfl := LinkTask.yielding.inj heq
      simp [hpending]
  | next | sleepBandwidth | sleepLinkUp | sleepNodeUp | panicked => simp

/-- `P` holds of the statuses of the link and of the source node while the task yields. -/
structure YieldInv (P : LinkStatus → NodeStatus → Prop) (s : State) : Prop where
  paced : Paced s
  clears : ∀ i t, (s.nodes i).lastBufferClear = some t → t ≤ s.now
  yielding : ∀ j p, s.yieldingPacket j = some p → P (s.links j).status (s.nodes p.srcNode).status

namespace YieldInv
variable {net : InMemoryNetwork} {s s' : State} {P : LinkStatus → NodeStatus → Prop}

theorem of_tasks_next (htasks : ∀ j, s.linkTasks j = .next)
    (hclears : ∀ i t, (s.nodes i).lastBufferClear = some t → t ≤ s.now) : YieldInv P s where
  paced j := by rw [htasks j]; trivial
  clears := hclears
  yielding j p h := by simp [State.yieldingPacket, htasks j] at h

theorem frame (h : YieldInv P s) (hf : LinkFrame s s') : YieldInv P s' where
  paced := h.paced.frame hf
  clears i t ht := by
    rw [hf.lastBufferClear i] at ht
    exact (h.clears i t ht).trans hf.now
  yielding j p hp := by
    have hsame : s'.yieldingPacket j = s.yieldingPacket j := by
      simp [State.yieldingPacket, State.pending, State.clearedFromBuffer, NodeState.clearedFromBuffer, hf.linkTasks,
        hf.handled, hf.lastBufferClear]
    rw [hsame] at hp
    rw [hf.linkStatus j, hf.nodeStatus]
    exact h.yielding j p hp

theorem linkEffect (h : YieldInv P s) {j : LinkIx} (he : LinkEffect net j s s')
    (hpass : ∀ p, s.pending p → (s.links j).status = .up →
      ((s.nodes p.srcNode).isDown = false ∨ s.passesUnchecked j = some p) →
      P (s.links j).status (s.nodes p.srcNode).status) : YieldInv P s' where
  paced := h.paced.linkEffect he
  clears i t ht := by
    rw [he.frame.lastBufferClear i] at ht
    exact (h.clears i t ht).trans he.frame.now.ge
  yielding j' p hp := by
    have hf := he.frame
    rw [hf.linkStatus, hf.nodeStatus]
    obtain ⟨htask, hpending⟩ := State.yieldingPacket_eq_some.1 hp
    have hpending' : s.pending p := by
      simp only [State.pending, State.clearedFromBuffer, NodeState.clearedFromBuffer, hf.lastBufferClear,
        Bool.and_eq_true, Bool.not_eq_eq_eq_not, Bool.not_true] at hpending ⊢
      exact ⟨hf.handled _ hpending.1, hpending.2⟩
    by_cases hj : j' = j
    · subst hj
      rcases he.task_cases with hnext | hpanicked | ⟨q, s₁, hpick, hs'⟩
      · simp [hnext] at htask
      · simp [hpanicked] at htask
      · obtain ⟨links, hcarried⟩ := hpick.await
        rw [htask] at hpick hcarried
        obtain rfl := Option.some.inj hcarried
        obtain ⟨queue, hs₁⟩ := hpick.eq_dequeue
        rcases hpick.checked h.paced with hyield | hchecked
        · exact h.yielding j' q (State.yieldingPacket_eq_some.2 ⟨hyield, hpending'⟩)
        · have hun : s.handled q.stay = false := by
            simp only [State.pending, Bool.and_eq_true, Bool.not_eq_eq_eq_not, Bool.not_true] at hpending'
            exact hpending'.1
          have hun : s₁.handled q.stay = false := by rw [hs₁]; exact hun
          obtain ⟨hup, -, hnode⟩ := hchecked.past (.inr ⟨_, rfl⟩) hun
          have hstatus : (s₁.links j').status = (s.links j').status := by
            rw [hs₁]
            simp [State.dequeue, State.setLink]
          have hnodes : s₁.nodes = s.nodes := by rw [hs₁]; rfl
          rw [hstatus] at hup
          rw [hnodes] at hnode
          exact hpass q hpending' hup hnode
    · refine h.yielding j' p (State.yieldingPacket_eq_some.2 ⟨?_, hpending'⟩)
      rwa [hf.linkTasks j' hj] at htask

theorem event (h : YieldInv P s) (hf : State.EventFrame s s')
    (hclear : ∀ i, (s'.nodes i).lastBufferClear = (s.nodes i).lastBufferClear ∨
      (s'.nodes i).lastBufferClear = some s.now)
    (hP : ∀ j p, s.yieldingPacket j = some p → P (s.links j).status (s.nodes p.srcNode).status →
      P (s'.links j).status (s'.nodes p.srcNode).status) : YieldInv P s' where
  paced := h.paced.event hf
  clears i t ht := by
    rw [hf.now]
    rcases hclear i with hc | hc
    · exact h.clears i t (hc ▸ ht)
    · rw [hc] at ht
      exact (Option.some.inj ht).ge
  yielding j p hp := by
    obtain ⟨htask, hpending⟩ := State.yieldingPacket_eq_some.1 hp
    have hpending' : s.pending p := by
      simp only [State.pending, Bool.and_eq_true, Bool.not_eq_eq_eq_not, Bool.not_true, hf.handled] at hpending ⊢
      refine ⟨hpending.1, ?_⟩
      have hnot := hpending.2
      simp only [State.clearedFromBuffer, NodeState.clearedFromBuffer] at hnot ⊢
      rcases hclear p.srcNode with hc | hc
      · rwa [hc] at hnot
      · rw [hc] at hnot
        cases hold : (s.nodes p.srcNode).lastBufferClear with
        | none => rfl
        | some t =>
          have := h.clears _ _ hold
          simp only [decide_eq_false_iff_not, Nat.not_lt] at hnot ⊢
          omega
    have hp' := State.yieldingPacket_eq_some.2 ⟨hf.linkTasks ▸ htask, hpending'⟩
    exact hP j p hp' (h.yielding j p hp')

end YieldInv

/-! ### Events and statuses -/

namespace State
variable {net : InMemoryNetwork} {s : State}

theorem nodes_processLinkEvent (net : InMemoryNetwork) (s : State) (event : LinkEventPayload) :
    (s.processLinkEvent net event).nodes = s.nodes := by
  rcases processLinkEvent_cases net s event with heq | ⟨j, s₁, -, hchange, heq⟩
  · rw [heq]
  · rw [heq]
    generalize event.status = status at hchange
    cases hchange <;> rfl

theorem links_processNodeEvent (net : InMemoryNetwork) (s : State) (event : NodeEventPayload) :
    (s.processNodeEvent net event).links = s.links := by
  rcases processNodeEvent_cases net s event with heq | ⟨i, s₁, -, hchange, heq⟩
  · rw [heq]
  · rw [heq]
    generalize event.status = status at hchange
    cases hchange <;> split_ifs <;> rfl

/-- A link that is up stays up, unless the event takes it down. -/
theorem linkStatus_processLinkEvent {event : LinkEventPayload} {j : LinkIx} (hup : (s.links j).status = .up)
    (hno : ¬ (event.status = some .down ∧ net.linksById.lookup event.linkId = some j)) :
    ((s.processLinkEvent net event).links j).status = .up := by
  rcases processLinkEvent_cases net s event with heq | ⟨j', s₁, hlookup, hchange, heq⟩
  · rw [heq, hup]
  · rw [heq]
    show (s₁.links j).status = .up
    generalize hstatus : event.status = status at hchange hno
    cases hchange with
    | same _ h => exact hup
    | down hup' =>
      have hj : j ≠ j' := fun hj => hno ⟨rfl, hj ▸ hlookup⟩
      simpa [setLink, hj] using hup
    | up upTx hdown =>
      by_cases hj : j = j'
      · simp [setLink, hj]
      · simpa [setLink, hj] using hup

theorem nodeStatus_processNodeEvent {event : NodeEventPayload} {i : NodeIx} (hup : (s.nodes i).status = .up)
    (hno : ¬ (event.status = some .down ∧ net.nodesById.lookup event.nodeId = some i)) :
    ((s.processNodeEvent net event).nodes i).status = .up := by
  rcases processNodeEvent_cases net s event with heq | ⟨i', s₁, hlookup, hchange, heq⟩
  · rw [heq, hup]
  · rw [heq]
    have hs₁ : (s₁.nodes i).status = .up := by
      generalize hstatus : event.status = status at hchange hno
      cases hchange with
      | same _ h => exact hup
      | down hup' =>
        have hi : i ≠ i' := fun hi => hno ⟨rfl, hi ▸ hlookup⟩
        simpa [setNode, hi] using hup
      | up upTx hdown =>
        by_cases hi : i = i'
        · simp [setNode, hi]
        · simpa [setNode, hi] using hup
    split_ifs
    · by_cases hi : i = i'
      · subst hi
        simpa [trackNodeEvent, record, clearBuffer, NodeState.clearBuffer, setNode] using hs₁
      · simpa [trackNodeEvent, record, clearBuffer, NodeState.clearBuffer, setNode, hi] using hs₁
    · exact hs₁

theorem lastBufferClear_processNodeEvent (event : NodeEventPayload) (i : NodeIx) :
    ((s.processNodeEvent net event).nodes i).lastBufferClear = (s.nodes i).lastBufferClear ∨
      ((s.processNodeEvent net event).nodes i).lastBufferClear = some s.now := by
  rcases processNodeEvent_cases net s event with heq | ⟨i', s₁, hlookup, hchange, heq⟩
  · exact .inl (by rw [heq])
  · rw [heq]
    obtain ⟨hs₁, hnow⟩ : (s₁.nodes i).lastBufferClear = (s.nodes i).lastBufferClear ∧ s₁.now = s.now := by
      generalize event.status = status at hchange
      cases hchange with
      | same _ h => exact ⟨rfl, rfl⟩
      | down hup => by_cases hi : i = i' <;> simp [setNode, hi]
      | up upTx hdown => by_cases hi : i = i' <;> simp [setNode, hi]
    split_ifs
    · by_cases hi : i = i'
      · right
        simp [trackNodeEvent, record, clearBuffer, NodeState.clearBuffer, setNode, hi, hnow]
      · left
        simpa [trackNodeEvent, record, clearBuffer, NodeState.clearBuffer, setNode, hi] using hs₁
    · exact .inl hs₁

end State

namespace YieldInv
variable {net : InMemoryNetwork} {s : State} {P : LinkStatus → NodeStatus → Prop}

theorem linkEvent (h : YieldInv P s) (event : LinkEventPayload)
    (hP : ∀ j p, s.yieldingPacket j = some p → P (s.links j).status (s.nodes p.srcNode).status →
      P ((s.processLinkEvent net event).links j).status (s.nodes p.srcNode).status) :
    YieldInv P (s.processLinkEvent net event) :=
  h.event (s.processLinkEvent_frame net event) (fun i => .inl (by rw [State.nodes_processLinkEvent]))
    (by rw [State.nodes_processLinkEvent]; exact hP)

theorem nodeEvent (h : YieldInv P s) (event : NodeEventPayload)
    (hP : ∀ j p, s.yieldingPacket j = some p → P (s.links j).status (s.nodes p.srcNode).status →
      P (s.links j).status ((s.processNodeEvent net event).nodes p.srcNode).status) :
    YieldInv P (s.processNodeEvent net event) :=
  h.event (s.processNodeEvent_frame net event) (State.lastBufferClear_processNodeEvent event)
    (by rw [State.links_processNodeEvent]; exact hP)

theorem events (h : YieldInv P s) (events : List NetworkEvent) : YieldInv P { s with events } :=
  ⟨h.paced, h.clears, h.yielding⟩

theorem initialized {spec : NetworkSpec} {networkEvents : NetworkEvents} {s₀ : State} {simulationStart start now : Nat}
    {disableTimeWarping : Bool} (h : InMemoryNetwork.initializeNetwork spec networkEvents simulationStart start now
      disableTimeWarping = .ok (net, s₀)) : YieldInv P s₀ := by
  have hno : ∀ {s : State}, (∀ j, s.linkTasks j = .next) → ∀ j p, s.yieldingPacket j ≠ some p := fun htasks j p hp => by
    simp [State.yieldingPacket, htasks j] at hp
  refine And.right (a := ∀ j, s₀.linkTasks j = .next) ?_
  refine InMemoryNetwork.initializeNetwork_induction (I := fun s => (∀ j, s.linkTasks j = .next) ∧ YieldInv P s) h ?_ ?_ ?_
  · exact ⟨fun j => rfl, of_tasks_next (fun j => rfl) (by simp [InMemoryNetwork.initialState, NodeState.new])⟩
  · rintro s payload - ⟨htasks, hs⟩
    refine ⟨fun j => ?_, hs.linkEvent payload fun j p hp => absurd hp (hno htasks j p)⟩
    rw [(s.processLinkEvent_frame net payload).linkTasks]
    exact htasks j
  · rintro s payload - ⟨htasks, hs⟩
    refine ⟨fun j => ?_, hs.nodeEvent payload fun j p hp => absurd hp (hno htasks j p)⟩
    rw [(s.processNodeEvent_frame net payload).linkTasks]
    exact htasks j

end YieldInv

end QuicWorkbench
