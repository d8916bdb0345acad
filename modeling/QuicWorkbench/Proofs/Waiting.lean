import QuicWorkbench.Proofs.Fifo
import QuicWorkbench.Proofs.UpNotifiers

/-!
# What the tasks of links wait for

A task that sleeps does so for a reason that goes away: until the last send is through, until its link is up again, or until
the node of its packet is. The notifiers that the tasks hold were sent to, or belong to a link or node that is down right
now, so no wake-up is lost (`SleepsInv`). A poll of a task that has no reason to wait gets it further, by a measure that
only new packets raise (`linkWork`).
-/

namespace QuicWorkbench

theorem LinkStatus.eq_down {status : LinkStatus} {upRx : Nat} (h : status.notifierForLinkUp = some upRx) :
    status = .down upRx := by
  cases status with
  | up => simp [notifierForLinkUp] at h
  | down c => rw [Option.some.inj h]

theorem NodeStatus.eq_down {status : NodeStatus} {upRx : Nat} (h : status.notifierForNodeUp = some upRx) :
    status = .down upRx := by
  cases status with
  | up => simp [notifierForNodeUp] at h
  | down c => rw [Option.some.inj h]

theorem Oneshots.signalled_eq_true {os : Oneshots} {c : Nat} : os.signalled c = true ↔ os[c]? = some true := by
  rw [signalled, List.getD_eq_getElem?_getD]
  cases os[c]? <;> simp

theorem Oneshots.signalled_of_unsent {os : Oneshots} {c : Nat} (h : os[c]? = some false) : os.signalled c = false := by
  rw [signalled, List.getD_eq_getElem?_getD, h]
  rfl

namespace State

/-- What a task that sleeps sleeps for. -/
def SleepsFor (s : State) (j : LinkIx) : LinkTask → Prop
  | .sleepBandwidth _ deadline => deadline ≤ s.now ∨ (s.links j).pacer.lastSend = some deadline
  | .sleepLinkUp _ upRx => s.switches.Awaited (.link j) upRx
  | .sleepNodeUp packet upRx => s.switches.Awaited (.node packet.srcNode) upRx
  | .next | .yielding _ | .panicked => True

/-- The task can do nothing until something around it changes. -/
def Waits (s : State) (j : LinkIx) : Prop :=
  match s.linkTasks j with
  | .next => (s.links j).outgoingQueue = []
  | .sleepBandwidth packet deadline => s.handled packet.stay = false ∧ s.now < deadline
  | .sleepLinkUp packet upRx => s.handled packet.stay = false ∧ s.oneshots.signalled upRx = false
  | .sleepNodeUp packet upRx => s.handled packet.stay = false ∧ s.oneshots.signalled upRx = false
  | .yielding _ => False
  | .panicked => True

instance (s : State) (j : LinkIx) : Decidable (s.Waits j) := by
  unfold Waits
  split <;> infer_instance

/-- How many more polls the task can make of its packet, at most. -/
def taskWork (s : State) : LinkTask → Nat
  | .next | .panicked => 0
  | .sleepBandwidth packet _ => packet.preferredLinks.length + 4
  | .sleepLinkUp packet upRx => packet.preferredLinks.length + if s.oneshots.signalled upRx then 3 else 2
  | .sleepNodeUp packet upRx => packet.preferredLinks.length + if s.oneshots.signalled upRx then 3 else 2
  | .yielding packet => packet.preferredLinks.length + 1

/-- How many polls a packet in the queue of a link takes, at most. -/
def packetWork (packet : OutgoingPacket) : Nat := packet.preferredLinks.length + 5

/-- How many more polls the link's task can make of the packets that it has. -/
def linkWork (s : State) (j : LinkIx) : Nat :=
  s.taskWork (s.linkTasks j) + ((s.links j).outgoingQueue.map packetWork).sum

/-! ### Where a move gets to -/

/-- The move ends at an await point with its reason, and with no more than `n` polls to make. -/
structure Move.Sleeps (s : State) (j : LinkIx) (n : Nat) (m : Move) : Prop where
  sleeps : ∀ task, m = .await task → s.SleepsFor j task
  within : ∀ task, m = .await task → s.taskWork task ≤ n

variable {s s' : State} {j : LinkIx} {p : OutgoingPacket} {n : Nat} {m : Move}

theorem Move.Sleeps.mono {n' : Nat} (h : m.Sleeps s j n) (hn : n ≤ n') : m.Sleeps s j n' :=
  ⟨h.sleeps, fun task htask => (h.within task htask).trans hn⟩

theorem yieldToPreferred_sleeps : (s.yieldToPreferred j p).Sleeps s j p.preferredLinks.length := by
  unfold yieldToPreferred
  split
  · exact ⟨by simp, by simp⟩
  · rename_i preferredLink preferredLinks heq
    dsimp only
    split_ifs
    · refine ⟨fun task htask => ?_, fun task htask => ?_⟩
      · obtain rfl := Move.await.inj htask
        trivial
      · obtain rfl := Move.await.inj htask
        rw [heq]
        exact Nat.le_refl _
    · exact ⟨by simp, by simp⟩

/-- A task that is parked at a notifier has just obtained it from a link that is down. -/
theorem sleeps_linkUp (hwf : s.switches.Wf) {upRx : Nat} (hoff : s.notifierForUp (.link j) = some upRx) :
    (Move.await (.sleepLinkUp p upRx)).Sleeps s j (p.preferredLinks.length + 2) := by
  have hunsent : s.oneshots.signalled upRx = false := Oneshots.signalled_of_unsent (hwf.unsent (.link j) upRx hoff)
  refine ⟨fun task htask => ?_, fun task htask => ?_⟩
  · obtain rfl := Move.await.inj htask
    exact .inr hoff
  · obtain rfl := Move.await.inj htask
    rw [taskWork, hunsent]
    exact Nat.le_refl _

theorem sleeps_nodeUp (hwf : s.switches.Wf) {upRx : Nat} (hoff : s.notifierForUp (.node p.srcNode) = some upRx) :
    (Move.await (.sleepNodeUp p upRx)).Sleeps s j (p.preferredLinks.length + 2) := by
  have hunsent : s.oneshots.signalled upRx = false := Oneshots.signalled_of_unsent (hwf.unsent (.node p.srcNode) upRx hoff)
  refine ⟨fun task htask => ?_, fun task htask => ?_⟩
  · obtain rfl := Move.await.inj htask
    exact .inr hoff
  · obtain rfl := Move.await.inj htask
    rw [taskWork, hunsent]
    exact Nat.le_refl _

theorem recheckLink_sleeps (hwf : s.switches.Wf) : (s.recheckLink j p).Sleeps s j (p.preferredLinks.length + 2) := by
  unfold recheckLink
  split
  · exact yieldToPreferred_sleeps.mono (Nat.le_add_right ..)
  · rename_i upRx hdown
    refine sleeps_linkUp hwf ?_
    rw [notifierForUp, hdown]
    rfl

theorem waitForNode_sleeps (hwf : s.switches.Wf) : (s.waitForNode j p).Sleeps s j (p.preferredLinks.length + 2) := by
  unfold waitForNode
  split
  · rename_i upRx hdown
    exact sleeps_nodeUp hwf hdown
  · exact recheckLink_sleeps hwf

theorem waitForLink_sleeps (hwf : s.switches.Wf) : (s.waitForLink j p).Sleeps s j (p.preferredLinks.length + 2) := by
  unfold waitForLink
  split
  · rename_i upRx hdown
    exact sleeps_linkUp hwf hdown
  · exact waitForNode_sleeps hwf

theorem pollSleepBandwidth_sleeps (hwf : s.switches.Wf) {deadline : Nat}
    (hdeadline : deadline ≤ s.now ∨ (s.links j).pacer.lastSend = some deadline) :
    (s.pollSleepBandwidth j p deadline).Sleeps s j (p.preferredLinks.length + 4) := by
  unfold pollSleepBandwidth select
  split_ifs
  · exact yieldToPreferred_sleeps.mono (Nat.le_add_right ..)
  · exact (waitForLink_sleeps hwf).mono (by omega)
  · refine ⟨fun task htask => ?_, fun task htask => ?_⟩
    · obtain rfl := Move.await.inj htask
      exact hdeadline
    · obtain rfl := Move.await.inj htask
      exact Nat.le_refl _

/-- The sleep ends when the last send is through, or right away. -/
theorem now_add_durationUntilCanSend (pacer : PacketPacer) (now : Nat) :
    now + pacer.durationUntilCanSend now ≤ now ∨ pacer.lastSend = some (now + pacer.durationUntilCanSend now) := by
  cases hlast : pacer.lastSend with
  | none =>
    left
    rw [PacketPacer.durationUntilCanSend, hlast]
    exact Nat.le_refl _
  | some done =>
    rw [PacketPacer.durationUntilCanSend, hlast]
    simp only [Option.some.injEq]
    omega

theorem takePacket_sleeps (hwf : s.switches.Wf) : (s.takePacket j p).Sleeps s j (p.preferredLinks.length + 4) := by
  unfold takePacket
  split_ifs
  · exact yieldToPreferred_sleeps.mono (Nat.le_add_right ..)
  · unfold sleepUntilReadyToSend
    dsimp only
    split_ifs
    exact pollSleepBandwidth_sleeps hwf (now_add_durationUntilCanSend _ _)

theorem taskWork_congr (honeshots : s'.oneshots = s.oneshots) : s'.taskWork = s.taskWork := by
  funext task
  cases task <;> simp only [taskWork, honeshots]

theorem switches_congr (honeshots : s'.oneshots = s.oneshots) (hlinks : ∀ j, (s'.links j).status = (s.links j).status)
    (hnodes : ∀ i, (s'.nodes i).status = (s.nodes i).status) : s'.switches = s.switches := by
  have hoff : s'.notifierForUp = s.notifierForUp := by
    funext e
    cases e with
    | link j => exact congrArg LinkStatus.notifierForLinkUp (hlinks j)
    | node i => exact congrArg NodeStatus.notifierForNodeUp (hnodes i)
  rw [switches, switches, hoff, honeshots]

/-- The reason to sleep stays what it is, as long as the link does not send and time does not go back. -/
theorem SleepsFor.mono {task : LinkTask} (h : s.SleepsFor j task) (hnow : s.now ≤ s'.now)
    (hpacer : (s'.links j).pacer = (s.links j).pacer)
    (hawaited : ∀ e c, s.switches.Awaited e c → s'.switches.Awaited e c) : s'.SleepsFor j task := by
  cases task with
  | sleepBandwidth packet deadline =>
    rcases h with hle | hlast
    · exact .inl (hle.trans hnow)
    · exact .inr (hpacer ▸ hlast)
  | sleepLinkUp packet upRx => exact hawaited _ _ h
  | sleepNodeUp packet upRx => exact hawaited _ _ h
  | next => trivial
  | yielding packet => trivial
  | panicked => trivial

theorem switches_processLinkEvent (net : InMemoryNetwork) (s : State) (event : LinkEventPayload) :
    (s.processLinkEvent net event).switches = s.switches ∨
      ∃ e on, (s.processLinkEvent net event).switches = s.switches.turn e on := by
  unfold processLinkEvent
  split
  · exact .inl rfl
  · rename_i j _
    cases event.status with
    | none => exact .inl rfl
    | some status => exact .inr ⟨.link j, _, s.switches_updateLinkStatus j status⟩

theorem switches_clearBuffer (s : State) (i : NodeIx) : (s.clearBuffer i).switches = s.switches := by
  refine switches_congr rfl (fun j => rfl) fun i' => ?_
  by_cases hi : i' = i
  · simp [clearBuffer, setNode, NodeState.clearBuffer, hi]
  · simp [clearBuffer, setNode, hi]

theorem switches_processNodeEvent (net : InMemoryNetwork) (s : State) (event : NodeEventPayload) :
    (s.processNodeEvent net event).switches = s.switches ∨
      ∃ e on, (s.processNodeEvent net event).switches = s.switches.turn e on := by
  have hclear : ∀ (i : NodeIx) (s₁ : State),
      ((if event.clearBuffer then s₁.clearBuffer i else s₁).trackNodeEvent net event).switches = s₁.switches := by
    intro i s₁
    split_ifs
    · exact switches_clearBuffer s₁ i
    · rfl
  unfold processNodeEvent
  split
  · exact .inl rfl
  · rename_i i _
    cases event.status with
    | none => exact .inl (hclear i s)
    | some status => exact .inr ⟨.node i, _, (hclear i _).trans (s.switches_updateNodeStatus i status)⟩

end State

theorem StayEffect.oneshots {net : InMemoryNetwork} {s s' : State} (h : StayEffect net s s') : s'.oneshots = s.oneshots := by
  cases h with
  | accept i d buffer => rfl
  | acceptInVain i d buffer => rfl
  | offer i packet outbound links rolls =>
    rw [State.pushCopies_eq]
    rfl
  | panicOffer i packet outbound links done rest j rolls =>
    rw [State.pushCopies_eq]
    rfl
  | endNodeTask i task => rfl

theorem Effect.oneshots {net : InMemoryNetwork} {σ σ' : Scene} (h : Effect net σ σ') :
    σ'.state.oneshots = σ.state.oneshots := by
  rcases h.quiet_or_stay with hq | hs
  · exact hq.oneshots
  · exact hs.oneshots

theorem LinkEffect.oneshots {net : InMemoryNetwork} {s s' : State} {j : LinkIx} (h : LinkEffect net j s s') :
    s'.oneshots = s.oneshots := by
  cases h with
  | park p s₁ task hp => obtain ⟨queue, rfl⟩ := hp.eq_dequeue; rfl
  | discard p p' s₁ hp => obtain ⟨queue, rfl⟩ := hp.eq_dequeue; rfl
  | clear p p' s₁ hp => obtain ⟨queue, rfl⟩ := hp.eq_dequeue; rfl
  | send p p' s₁ data slot hp => obtain ⟨queue, rfl⟩ := hp.eq_dequeue; rfl
  | panicSend p p' s₁ hp => obtain ⟨queue, rfl⟩ := hp.eq_dequeue; rfl

theorem LinkEffect.switches {net : InMemoryNetwork} {s s' : State} {j : LinkIx} (h : LinkEffect net j s s') :
    s'.switches = s.switches :=
  State.switches_congr h.oneshots h.frame.linkStatus h.frame.nodeStatus

theorem Picks.switches {s s₁ : State} {j : LinkIx} {p : OutgoingPacket} {m : State.Move} (h : Picks j s p s₁ m) :
    s₁.switches = s.switches := by
  obtain ⟨queue, rfl⟩ := h.eq_dequeue
  refine State.switches_congr rfl (fun j' => ?_) fun i => rfl
  by_cases hj : j' = j <;> simp [State.dequeue, State.setLink, hj]

/-! ### Polls -/

/-- No wake-up is lost: a task that sleeps will be told when the reason for it goes away. -/
structure SleepsInv (s : State) : Prop where
  switches : s.switches.Wf
  sleeps : ∀ j, s.SleepsFor j (s.linkTasks j)

namespace Picks
open State
variable {s s₁ : State} {j : LinkIx} {p p' : OutgoingPacket} {task : LinkTask}

theorem select_await {done : Bool} {go : Move} {pending : LinkTask} (hawait : s.select j p done go pending = .await task)
    (hgo : done → ∃ n < s.taskWork pending, go.Sleeps s j n) :
    (s.handled p.stay = false ∧ done = false ∧ task = pending) ∨
      ¬ (s.handled p.stay = false ∧ done = false) ∧ s.SleepsFor j task ∧ s.taskWork task < s.taskWork pending := by
  unfold select at hawait
  split_ifs at hawait with hhandled hdone
  · -- a handled packet is not parked again
    have hun := (yieldToPreferred_await hawait).1
    rw [hun] at hhandled
    exact Bool.noConfusion hhandled
  · rcases hgo hdone with ⟨n, hn, hsleeps⟩
    refine .inr ⟨?_, hsleeps.sleeps task hawait, (hsleeps.within task hawait).trans_lt hn⟩
    rintro ⟨-, hnot⟩
    rw [hdone] at hnot
    exact Bool.noConfusion hnot
  · exact .inl ⟨by simpa using hhandled, by simpa using hdone, (Move.await.inj hawait).symm⟩

/-- A poll that parks the task finds it waiting, or takes it to another await point, with less to do. -/
theorem await_cases (h : SleepsInv s) (hp : Picks j s p s₁ (.await task)) :
    (s.Waits j ∧ s₁ = s ∧ task = s.linkTasks j) ∨
      ¬ s.Waits j ∧ s₁.SleepsFor j task ∧ s₁.taskWork task + ((s₁.links j).outgoingQueue.map packetWork).sum < s.linkWork j := by
  have hwf : s₁.switches.Wf := by
    rw [hp.switches]
    exact h.switches
  cases hp with
  | take queue htask hqueue hs hm =>
    right
    have hsleeps := takePacket_sleeps (j := j) (p := p) hwf
    refine ⟨by simp [Waits, htask, hqueue], hsleeps.sleeps task hm.symm, ?_⟩
    have hle := hsleeps.within task hm.symm
    have hrest : (s₁.links j).outgoingQueue = queue := by simp [hs, dequeue, setLink]
    have hnext : s.taskWork .next = 0 := rfl
    rw [linkWork, htask, hqueue, hrest, hnext, List.map_cons, List.sum_cons, packetWork]
    omega
  | resume hs htask hm =>
    subst hs
    cases htask' : s₁.linkTasks j with
    | next => simp [htask', LinkTask.packet?] at htask
    | panicked => simp [htask', LinkTask.packet?] at htask
    | yielding q =>
      right
      rw [htask'] at htask hm
      obtain rfl := Option.some.inj htask
      have hsleeps := yieldToPreferred_sleeps (s := s₁) (j := j) (p := q)
      have hm : s₁.yieldToPreferred j q = .await task := Option.some.inj hm
      refine ⟨by simp [Waits, htask'], hsleeps.sleeps task hm, ?_⟩
      have hle := hsleeps.within task hm
      have hyielding : s₁.taskWork (.yielding q) = q.preferredLinks.length + 1 := rfl
      rw [linkWork, htask', hyielding]
      omega
    | sleepBandwidth q deadline =>
      rw [htask'] at htask hm
      obtain rfl := Option.some.inj htask
      rcases select_await (Option.some.inj hm) (fun _ => ⟨_, by show _ + 2 < _ + 4; omega, waitForLink_sleeps hwf⟩) with
        ⟨hun, hdone, rfl⟩ | ⟨hgoes, hsleeps, hlt⟩
      · exact .inl ⟨by simp only [Waits, htask']; exact ⟨hun, by simpa using hdone⟩, rfl, rfl⟩
      · refine .inr ⟨?_, hsleeps, ?_⟩
        · simpa only [Waits, htask', decide_eq_false_iff_not, Nat.not_le] using hgoes
        · rw [linkWork, htask']
          omega
    | sleepLinkUp q upRx =>
      rw [htask'] at htask hm
      obtain rfl := Option.some.inj htask
      have hgo : s₁.oneshots.signalled upRx → ∃ n < s₁.taskWork (.sleepLinkUp q upRx), (s₁.waitForNode j q).Sleeps s₁ j n := by
        intro hsignalled
        refine ⟨_, ?_, waitForNode_sleeps hwf⟩
        rw [taskWork, if_pos hsignalled]
        omega
      rcases select_await (Option.some.inj hm) hgo with ⟨hun, hdone, rfl⟩ | ⟨hgoes, hsleeps, hlt⟩
      · exact .inl ⟨by simp only [Waits, htask']; exact ⟨hun, hdone⟩, rfl, rfl⟩
      · refine .inr ⟨?_, hsleeps, ?_⟩
        · simpa only [Waits, htask'] using hgoes
        · rw [linkWork, htask']
          omega
    | sleepNodeUp q upRx =>
      rw [htask'] at htask hm
      obtain rfl := Option.some.inj htask
      have hgo : s₁.oneshots.signalled upRx → ∃ n < s₁.taskWork (.sleepNodeUp q upRx), (s₁.recheckLink j q).Sleeps s₁ j n := by
        intro hsignalled
        refine ⟨_, ?_, recheckLink_sleeps hwf⟩
        rw [taskWork, if_pos hsignalled]
        omega
      rcases select_await (Option.some.inj hm) hgo with ⟨hun, hdone, rfl⟩ | ⟨hgoes, hsleeps, hlt⟩
      · exact .inl ⟨by simp only [Waits, htask']; exact ⟨hun, hdone⟩, rfl, rfl⟩
      · refine .inr ⟨?_, hsleeps, ?_⟩
        · simpa only [Waits, htask'] using hgoes
        · rw [linkWork, htask']
          omega

theorem not_waits (hp : Picks j s p s₁ (.ready p')) : ¬ s.Waits j := by
  cases hp with
  | take queue htask hqueue hs hm => simp [Waits, htask, hqueue]
  | resume hs htask hm =>
    subst hs
    cases htask' : s₁.linkTasks j with
    | next => simp [htask', LinkTask.packet?] at htask
    | panicked => simp [htask', LinkTask.packet?] at htask
    | yielding q => simp [Waits, htask']
    | sleepBandwidth q deadline =>
      rw [htask'] at hm
      simp only [Waits, htask']
      rintro ⟨hun, hlt⟩
      have hselect := Option.some.inj hm
      rw [pollSleepBandwidth, select, hun, if_neg (by simp), if_neg (by simpa using hlt)] at hselect
      exact Move.noConfusion hselect
    | sleepLinkUp q upRx =>
      rw [htask'] at hm
      simp only [Waits, htask']
      rintro ⟨hun, hunsent⟩
      have hselect := Option.some.inj hm
      rw [select, hun, if_neg (by simp), hunsent, if_neg (by simp)] at hselect
      exact Move.noConfusion hselect
    | sleepNodeUp q upRx =>
      rw [htask'] at hm
      simp only [Waits, htask']
      rintro ⟨hun, hunsent⟩
      have hselect := Option.some.inj hm
      rw [select, hun, if_neg (by simp), hunsent, if_neg (by simp)] at hselect
      exact Move.noConfusion hselect

theorem queueWork_lt {m : Move} (hp : Picks j s p s₁ m) :
    ((s₁.links j).outgoingQueue.map packetWork).sum < s.linkWork j := by
  cases hp with
  | take queue htask hqueue hs hm =>
    have hrest : (s₁.links j).outgoingQueue = queue := by simp [hs, dequeue, setLink]
    rw [linkWork, hqueue, hrest, List.map_cons, List.sum_cons, packetWork]
    omega
  | resume hs htask hm =>
    subst hs
    have hpos : 0 < s₁.taskWork (s₁.linkTasks j) := by
      cases htask' : s₁.linkTasks j with
      | next => simp [htask', LinkTask.packet?] at htask
      | panicked => simp [htask', LinkTask.packet?] at htask
      | sleepBandwidth q deadline => exact Nat.succ_pos _
      | sleepLinkUp q upRx =>
        rw [taskWork]
        split_ifs <;> omega
      | sleepNodeUp q upRx =>
        rw [taskWork]
        split_ifs <;> omega
      | yielding q => exact Nat.succ_pos _
    rw [linkWork]
    omega

end Picks

theorem State.exists_processLinkQueue {s : State} {j : LinkIx} (h : ¬ s.Waits j) (net : InMemoryNetwork) (slot : Nat) :
    ∃ s', s.processLinkQueue net j slot = some s' := by
  unfold Waits at h
  unfold processLinkQueue
  cases htask : s.linkTasks j with
  | next =>
    cases hqueue : (s.links j).outgoingQueue with
    | nil => simp [htask, hqueue] at h
    | cons packet queue => exact ⟨_, rfl⟩
  | panicked => simp [htask] at h
  | sleepBandwidth packet deadline => exact ⟨_, rfl⟩
  | sleepLinkUp packet upRx => exact ⟨_, rfl⟩
  | sleepNodeUp packet upRx => exact ⟨_, rfl⟩
  | yielding packet => exact ⟨_, rfl⟩

namespace LinkEffect
open State
variable {net : InMemoryNetwork} {s s' : State} {j : LinkIx}

theorem linkWork_cases (h : SleepsInv s) (he : LinkEffect net j s s') :
    (s.Waits j ∧ s' = s) ∨ ¬ s.Waits j ∧ s'.linkWork j < s.linkWork j := by
  -- the end of an iteration leaves the packets behind, at most
  have hend : ∀ {p p' : OutgoingPacket} {s₁ : State}, Picks j s p s₁ (.ready p') → s'.taskWork (s'.linkTasks j) = 0 →
      ((s'.links j).outgoingQueue = (s₁.links j).outgoingQueue ∨ (s'.links j).outgoingQueue = []) →
      ¬ s.Waits j ∧ s'.linkWork j < s.linkWork j := by
    intro p p' s₁ hp htask hqueue
    refine ⟨hp.not_waits, ?_⟩
    have hlt := hp.queueWork_lt
    rw [State.linkWork, htask]
    rcases hqueue with hqueue | hqueue
    · rw [hqueue]
      omega
    · rw [hqueue, List.map_nil, List.sum_nil]
      omega
  cases he with
  | park p s₁ task hp =>
    rcases hp.await_cases h with ⟨hwaits, rfl, rfl⟩ | ⟨hgoes, -, hlt⟩
    · exact .inl ⟨hwaits, by simp [setLinkTask]⟩
    · refine .inr ⟨hgoes, ?_⟩
      have htask : (s₁.setLinkTask j task).linkTasks j = task := by simp [setLinkTask]
      rw [State.linkWork, htask]
      exact hlt
  | discard p p' s₁ hp =>
    have htask : ((s₁.observe (.discarded j p')).setLinkTask j .next).linkTasks j = .next := by simp [setLinkTask]
    exact .inr (hend hp (by rw [htask]; rfl) (.inl rfl))
  | clear p p' s₁ hp =>
    refine .inr (hend hp ?_ (.inl rfl))
    simp [setLinkTask, taskWork]
  | send p p' s₁ data slot hp =>
    refine .inr (hend hp ?_ (.inl ?_))
    · simp [setLinkTask, taskWork]
    · simp [setLinkTask, transmit, observe, setNode, setLink, setHandled, trackPacketInTransit, record]
  | panicSend p p' s₁ hp =>
    refine .inr (hend hp ?_ (.inr ?_))
    · simp [panicLinkTask, setLinkTask, taskWork]
    · simp [panicLinkTask, setLinkTask, setLink]

theorem linkWork_of_ne (he : LinkEffect net j s s') {j' : LinkIx} (hj : j' ≠ j) : s'.linkWork j' = s.linkWork j' := by
  have htask := he.frame.linkTasks j' hj
  have hqueue : (s'.links j').outgoingQueue = (s.links j').outgoingQueue := by
    have hcopies := he.copies_of_ne hj
    rw [copies, copies, htask] at hcopies
    exact List.append_cancel_left hcopies
  rw [State.linkWork, State.linkWork, htask, hqueue, taskWork_congr he.oneshots]

end LinkEffect

namespace SleepsInv
open State
variable {net : InMemoryNetwork} {s s' : State}

theorem initial (net : InMemoryNetwork) (now : Nat) (events : List NetworkEvent) : SleepsInv (net.initialState now events) where
  switches := by
    have hon : (net.initialState now events).switches = ⟨fun _ => none, []⟩ := by
      refine congrArg (Switches.mk · _) (funext fun e => ?_)
      cases e with
      | link j => rfl
      | node i => rfl
    rw [hon]
    exact Switches.wf_on
  sleeps _ := trivial

theorem frame (h : SleepsInv s) (hnow : s.now ≤ s'.now) (htasks : s'.linkTasks = s.linkTasks)
    (hpacer : ∀ j, (s'.links j).pacer = (s.links j).pacer) (hswitches : s'.switches = s.switches) : SleepsInv s' where
  switches := hswitches ▸ h.switches
  sleeps j := by
    rw [htasks]
    exact (h.sleeps j).mono hnow (hpacer j) fun e c hawaited => hswitches ▸ hawaited

theorem event (h : SleepsInv s) (hf : EventFrame s s')
    (hswitches : s'.switches = s.switches ∨ ∃ e on, s'.switches = s.switches.turn e on) : SleepsInv s' := by
  rcases hswitches with heq | ⟨e, on, heq⟩
  · exact h.frame hf.now.ge hf.linkTasks hf.pacer heq
  · refine ⟨heq ▸ h.switches.turn e on, fun j => ?_⟩
    rw [hf.linkTasks]
    exact (h.sleeps j).mono hf.now.ge (hf.pacer j) fun e' c hawaited => heq ▸ hawaited.turn h.switches e on

theorem linkEffect (h : SleepsInv s) {j : LinkIx} (he : LinkEffect net j s s') : SleepsInv s' where
  switches := he.switches ▸ h.switches
  sleeps j' := by
    have hf := he.frame
    by_cases hj : j' = j
    · subst hj
      rcases he.task_cases with hnext | hpanicked | ⟨p, s₁, hp, heq⟩
      · rw [hnext]
        trivial
      · rw [hpanicked]
        trivial
      · -- the task was parked where it has a reason to sleep
        have hsleeps : s₁.SleepsFor j' (s'.linkTasks j') := by
          rcases hp.await_cases h with ⟨-, rfl, htask⟩ | ⟨-, hsleeps, -⟩
          · rw [htask]
            exact h.sleeps j'
          · exact hsleeps
        rw [heq] at hsleeps ⊢
        exact hsleeps.mono (Nat.le_refl _) rfl fun e c hawaited => hawaited
    · rw [hf.linkTasks j' hj]
      exact (h.sleeps j').mono hf.now.ge (hf.pacer j' hj) fun e c hawaited => he.switches ▸ hawaited

theorem preserved (net : InMemoryNetwork) : Preserved net fun σ => SleepsInv σ.state where
  effect σ σ' he h := by
    have hf := he.linkFrame
    exact h.frame hf.now hf.linkTasks hf.pacer (switches_congr he.oneshots hf.linkStatus hf.nodeStatus)
  link j s s' hj he h := h.linkEffect he
  linkEvent s event h := h.event (s.processLinkEvent_frame net event) (switches_processLinkEvent net s event)
  nodeEvent s event h := h.event (s.processNodeEvent_frame net event) (switches_processNodeEvent net s event)
  events s events h := h.frame (Nat.le_refl _) rfl (fun j => rfl) rfl

theorem reaches {disableTimeWarping : Bool} {spec : NetworkSpec} {events : List NetworkEvent}
    (h : Reaches disableTimeWarping spec events net s) : SleepsInv s :=
  (preserved net).reaches (fun now events _ => .initial net now events) h

end SleepsInv

/-! ### Forwarders -/

/-- A forwarder that has not panicked can hand packets out, and a timer that it has set is set to the arrival of a packet
that is still in flight. -/
def TimersInv (s : State) : Prop :=
  ∀ j delivery, s.forwarders j = .awaiting delivery → 0 < delivery.maxTransmits ∧
    ∀ deadline, delivery.sleep = some deadline → ∃ p ∈ (s.links j).inTransit.queue, p.arrivalTime = deadline

namespace TimersInv
open State NextPacketDelivery
variable {net : InMemoryNetwork} {s s' : State}

theorem frame (h : TimersInv s) (hforwarders : s'.forwarders = s.forwarders)
    (hqueue : ∀ j, (s.links j).inTransit.queue ⊆ (s'.links j).inTransit.queue) : TimersInv s' := by
  intro j delivery hdelivery
  rw [hforwarders] at hdelivery
  refine ⟨(h j delivery hdelivery).1, fun deadline hdeadline => ?_⟩
  rcases (h j delivery hdelivery).2 deadline hdeadline with ⟨p, hp, harrival⟩
  exact ⟨p, hqueue j hp, harrival⟩

theorem stretch {ks : List SimulationStepKind} (h : TimersInv s) (hs : Stretches net s s' ks) : TimersInv s' :=
  h.frame hs.forwarders fun j => by rw [hs.inTransit]; exact List.Subset.refl _

theorem event (h : TimersInv s) (hf : EventFrame s s') : TimersInv s' :=
  h.frame hf.forwarders fun j => by rw [hf.inTransit]; exact List.Subset.refl _

theorem linkEffect (h : TimersInv s) {j : LinkIx} (he : LinkEffect net j s s') : TimersInv s' := by
  refine h.frame he.forwarders fun j' => ?_
  by_cases hj : j' = j
  · subst hj
    rcases he.sends with ⟨p, slot, hsend⟩ | ⟨-, -, hinTransit⟩
    · intro x hx
      rw [hsend.inTransit]
      exact (MaxHeap.push_perm ..).symm.subset (List.mem_cons_of_mem _ hx)
    · rw [hinTransit]
      exact List.Subset.refl _
  · rw [he.inTransit_of_ne hj]
    exact List.Subset.refl _

theorem taken (h : TimersInv s) {j : LinkIx} {q : InboundQueue} {delivery : NextPacketDelivery}
    (hmax : 0 < delivery.maxTransmits)
    (htimer : ∀ deadline, delivery.sleep = some deadline → ∃ p ∈ q.queue, p.arrivalTime = deadline) :
    TimersInv ((s.setInTransit j q).setForwarder j (.awaiting delivery)) := by
  intro j' delivery' hdelivery
  by_cases hj : j' = j
  · subst hj
    have htask : ((s.setInTransit j' q).setForwarder j' (.awaiting delivery)).forwarders j' = .awaiting delivery := by
      simp [setForwarder]
    have hlink : (((s.setInTransit j' q).setForwarder j' (.awaiting delivery)).links j').inTransit = q := by
      simp [setForwarder, setInTransit, setLink]
    obtain rfl := ForwarderTask.awaiting.inj (htask.symm.trans hdelivery)
    rw [hlink]
    exact ⟨hmax, htimer⟩
  · have htask : ((s.setInTransit j q).setForwarder j (.awaiting delivery)).forwarders j' = s.forwarders j' := by
      simp [setForwarder, setInTransit, setLink, hj]
    have hlink : (((s.setInTransit j q).setForwarder j (.awaiting delivery)).links j') = s.links j' := by
      simp [setForwarder, setInTransit, setLink, hj]
    rw [hlink]
    exact h j' delivery' (htask ▸ hdelivery)

theorem panic (h : TimersInv s) (j : LinkIx) : TimersInv (s.setForwarder j .panicked) := by
  intro j' delivery hdelivery
  by_cases hj : j' = j
  · simp [setForwarder, hj] at hdelivery
  · have htask : (s.setForwarder j .panicked).forwarders j' = s.forwarders j' := by simp [setForwarder, hj]
    exact h j' delivery (htask ▸ hdelivery)

theorem forwarder (h : TimersInv s) {j : LinkIx} {draws : Nat → Draws}
    (hstep : s.forwardPacketsFromLinkToNode net j draws = some s') : TimersInv s' := by
  unfold forwardPacketsFromLinkToNode at hstep
  cases htask : s.forwarders j with
  | panicked => simp [htask] at hstep
  | awaiting delivery =>
    have hdelivery := h j delivery htask
    have hpoll := poll_cases delivery (s.links j).inTransit s.now j hdelivery.1
    simp only [htask] at hstep
    generalize delivery.poll (s.links j).inTransit s.now j = result at hstep hpoll
    cases hpoll with
    | asleep deadline hsleep hlt =>
      obtain rfl := Option.some.inj hstep
      exact h.taken hdelivery.1 hdelivery.2
    | empty hawake hq =>
      obtain rfl := Option.some.inj hstep
      exact h.taken hdelivery.1 (by simp)
    | early hawake p hp hmin hlt =>
      obtain rfl := Option.some.inj hstep
      exact h.taken hdelivery.1 fun deadline hdeadline => ⟨p, hp, Option.some.inj hdeadline⟩
    | ready hawake batch rest sleep hne hdue htimer =>
      -- the next future is a new one
      have hnew : TimersInv ((s.setInTransit j { (s.links j).inTransit with queue := rest }).setForwarder j
          (.awaiting (.new usizeMax))) := h.taken (by decide) (by simp [NextPacketDelivery.new])
      rcases Stretches.forwardDelivered net j (batch.map PrioritizedInTransitData.deliver) draws
        ((s.setInTransit j { (s.links j).inTransit with queue := rest }).setForwarder j (.awaiting (.new usizeMax))) with
        ⟨kinds, hs, -⟩
      have hsettled := hnew.stretch hs
      dsimp only at hstep
      split at hstep
      · rename_i hok
        obtain rfl := Option.some.inj hstep
        rwa [hok] at hsettled
      · rename_i herror
        obtain rfl := Option.some.inj hstep
        rw [herror] at hsettled
        exact hsettled.panic j

theorem step {a : Action} (h : TimersInv s) (hstep : net.step s a = some s') : TimersInv s' := by
  cases a with
  | advance duration =>
    obtain rfl := Option.some.inj hstep
    exact h
  | networkEvent =>
    rw [InMemoryNetwork.step] at hstep
    split at hstep
    · simp at hstep
    · rename_i event events hevents
      split_ifs at hstep
      obtain rfl := Option.some.inj hstep
      have hevents : TimersInv { s with events } := h
      exact hevents.stretch (Stretches.processEvent net _ event)
  | trySend i transmit uuid draws =>
    rcases Stretches.trySend hstep with ⟨kinds, hs⟩
    exact h.stretch hs
  | pollRecv i metaLen => exact h.stretch (Stretches.pollRecv hstep)
  | nodeTask i rolls =>
    rw [InMemoryNetwork.step] at hstep
    split_ifs at hstep
    exact h.stretch (Stretches.processBufferForNode hstep)
  | linkTask j slot =>
    rw [InMemoryNetwork.step] at hstep
    split_ifs at hstep
    exact h.linkEffect (processLinkQueue_effect hstep)
  | forwarder j draws =>
    rw [InMemoryNetwork.step] at hstep
    split_ifs at hstep
    exact h.forwarder hstep

theorem initial (net : InMemoryNetwork) (now : Nat) (events : List NetworkEvent) : TimersInv (net.initialState now events) := by
  intro j delivery hdelivery
  obtain rfl := ForwarderTask.awaiting.inj hdelivery
  exact ⟨by decide, by simp [NextPacketDelivery.new]⟩

theorem reaches {disableTimeWarping : Bool} {spec : NetworkSpec} {events : List NetworkEvent}
    (h : Reaches disableTimeWarping spec events net s) : TimersInv s := by
  rcases h with ⟨simulationStart, start, now, s₀, actions, -, -, hinit, hrun⟩
  refine Machine.run_invariant (M := net.machine) (I := TimersInv) (fun _ _ _ h hstep => h.step hstep) ?_ hrun
  refine InMemoryNetwork.initializeNetwork_induction (I := TimersInv) hinit (.initial net now _) ?_ ?_
  · exact fun s payload _ h => h.event (s.processLinkEvent_frame net payload)
  · exact fun s payload _ h => h.event (s.processNodeEvent_frame net payload)

end TimersInv

end QuicWorkbench
