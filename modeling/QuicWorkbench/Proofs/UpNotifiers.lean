import QuicWorkbench.Lib.Machine
import QuicWorkbench.Lib.Switches
import QuicWorkbench.Network.Initialize
import QuicWorkbench.Proofs.Simulate

/-!
# Up-notifiers

The links and nodes of a network, updated in any order, and the waiters that obtain an up-notifier from one that is down.
The sender of a notifier is in the status of its link or node and nowhere else, so a receiver is pending as long as the
status is the one that it was obtained from and has not sent. The links and nodes are a family of switches
(`switches_updateLinkStatus`, `switches_updateNodeStatus`).
-/

namespace QuicWorkbench

/-- A redundant update to down neither drops nor replaces the channel of the status. -/
theorem NetworkLink.updateStatus_down {l : NetworkLink} (h : l.status.isDown = true) (oneshots : Oneshots) (now : Nat) :
    l.updateStatus oneshots .down now = (l, oneshots) := by
  rw [NetworkLink.updateStatus_eq]
  cases hl : l.status with
  | up => simp [hl, LinkStatus.isDown] at h
  | down c => rfl

theorem NodeState.updateStatus_down {n : NodeState} (h : n.isDown = true) (oneshots : Oneshots) :
    n.updateStatus oneshots .down = (n, oneshots) := by
  rw [NodeState.updateStatus_eq]
  cases hn : n.status with
  | up => simp [hn, NodeState.isDown] at h
  | down c => rfl

/-- A link or a node, whose status holds the sender of its notifier. -/
inductive StatusOwner
  | link (j : LinkIx)
  | node (i : NodeIx)
  deriving DecidableEq

namespace State

/-- The channel whose sender is in the status of the owner. -/
def notifierForUp (s : State) : StatusOwner → Option Nat
  | .link j => (s.links j).status.notifierForLinkUp
  | .node i => (s.nodes i).status.notifierForNodeUp

def switches (s : State) : Switches StatusOwner := { off := s.notifierForUp, sent := s.oneshots }

theorem notifierForUp_setLink (s : State) (j : LinkIx) (l : NetworkLink) :
    (s.setLink j l).notifierForUp = Function.update s.notifierForUp (.link j) l.status.notifierForLinkUp := by
  funext e
  cases e with
  | link k =>
    rcases eq_or_ne k j with rfl | hne
    · simp [notifierForUp, setLink]
    · simp [notifierForUp, setLink, hne]
  | node i => simp [notifierForUp, setLink]

theorem notifierForUp_setNode (s : State) (i : NodeIx) (n : NodeState) :
    (s.setNode i n).notifierForUp = Function.update s.notifierForUp (.node i) n.status.notifierForNodeUp := by
  funext e
  cases e with
  | link j => simp [notifierForUp, setNode]
  | node k =>
    rcases eq_or_ne k i with rfl | hne
    · simp [notifierForUp, setNode]
    · simp [notifierForUp, setNode, hne]

theorem switches_updateLinkStatus (s : State) (j : LinkIx) (status : UpdateLinkStatus) :
    (s.updateLinkStatus j status).switches = s.switches.turn (.link j) (status = .up) := by
  have hturn : Switches.turnOne (s.links j).status.notifierForLinkUp s.oneshots (status = .up) =
      (((s.links j).updateStatus s.oneshots status s.now).1.status.notifierForLinkUp,
        ((s.links j).updateStatus s.oneshots status s.now).2) := by
    cases h : (s.links j).status <;> cases status <;> simp only [NetworkLink.updateStatus_eq, h] <;> rfl
  have hoff : Switches.turnOne (s.switches.off (.link j)) s.switches.sent (status = .up) = _ := hturn
  rw [Switches.turn_eq_update, hoff]
  exact congrArg (Switches.mk · _) (notifierForUp_setLink s j _)

theorem switches_updateNodeStatus (s : State) (i : NodeIx) (status : UpdateNodeStatus) :
    (s.updateNodeStatus i status).switches = s.switches.turn (.node i) (status = .up) := by
  have hturn : Switches.turnOne (s.nodes i).status.notifierForNodeUp s.oneshots (status = .up) =
      (((s.nodes i).updateStatus s.oneshots status).1.status.notifierForNodeUp,
        ((s.nodes i).updateStatus s.oneshots status).2) := by
    cases h : (s.nodes i).status <;> cases status <;> simp only [NodeState.updateStatus_eq, h] <;> rfl
  have hoff : Switches.turnOne (s.switches.off (.node i)) s.switches.sent (status = .up) = _ := hturn
  rw [Switches.turn_eq_update, hoff]
  exact congrArg (Switches.mk · _) (notifierForUp_setNode s i _)

end State

/-- An update of a link or node: to up or to down, and when. -/
structure StatusUpdate where
  owner : StatusOwner
  toUp : Bool
  time : Nat

/-- A receiver that was obtained from a link or node that was down, behind the first `since` updates. -/
structure Waiter where
  owner : StatusOwner
  upRx : Nat
  since : Nat

structure NotifierWorld where
  state : State
  updates : List StatusUpdate
  waiters : List Waiter

inductive NotifierAction
  | advance (by_ : Nat)
  | updateLinkStatus (j : LinkIx) (status : UpdateLinkStatus)
  | updateNodeStatus (i : NodeIx) (status : UpdateNodeStatus)
  /-- `notifier_for_link_up` or `notifier_for_node_up`. -/
  | wait (owner : StatusOwner)

namespace NotifierWorld

def step (w : NotifierWorld) : NotifierAction → Option NotifierWorld
  | .advance d => some { w with state := { w.state with now := w.state.now + d } }
  | .updateLinkStatus j status =>
    some { w with
      state := w.state.updateLinkStatus j status
      updates := w.updates ++ [{ owner := .link j, toUp := status = .up, time := w.state.now }] }
  | .updateNodeStatus i status =>
    some { w with
      state := w.state.updateNodeStatus i status
      updates := w.updates ++ [{ owner := .node i, toUp := status = .up, time := w.state.now }] }
  | .wait owner =>
    match w.state.notifierForUp owner with
    -- it is up
    | none => some w
    | some upRx => some { w with waiters := w.waiters ++ [{ owner, upRx, since := w.updates.length }] }

def machine : Machine NotifierWorld NotifierAction := ⟨step⟩

/-- All links and nodes are up. -/
def start (net : InMemoryNetwork) (now : Nat) : NotifierWorld :=
  { state := net.initialState now [], updates := [], waiters := [] }

end NotifierWorld

/-- The sender of the receiver's channel is still in the status, and has not sent. -/
def Waiter.Pending (x : Waiter) (s : State) : Prop :=
  s.notifierForUp x.owner = some x.upRx ∧ s.oneshots.signalled x.upRx = false

/-- Whether an owner that was up or not is up after updates. -/
def upAfter (up : Bool) (us : List StatusUpdate) : Bool := us.foldl (fun _ u => u.toUp) up

/-- The times at which an owner that was up or not goes from up to down, along its updates. -/
def realDowns : Bool → List StatusUpdate → List Nat
  | _, [] => []
  | up, u :: us => (if up && !u.toUp then [u.time] else []) ++ realDowns u.toUp us

theorem upAfter_snoc (up : Bool) (us : List StatusUpdate) (u : StatusUpdate) : upAfter up (us ++ [u]) = u.toUp := by
  simp [upAfter]

theorem realDowns_snoc (up : Bool) (us : List StatusUpdate) (u : StatusUpdate) :
    realDowns up (us ++ [u]) = realDowns up us ++ (if upAfter up us && !u.toUp then [u.time] else []) := by
  induction us generalizing up with
  | nil => simp [realDowns, upAfter]
  | cons v us ih =>
    rw [List.cons_append, realDowns, realDowns, ih, List.append_assoc]
    rfl

namespace NotifierWorld

/-- The updates of one owner, oldest first. -/
def updatesOf (w : NotifierWorld) (e : StatusOwner) : List StatusUpdate := w.updates.filter (·.owner = e)

/-- The switches after updates. -/
def switchesAfter (us : List StatusUpdate) : Switches StatusOwner :=
  Switches.turns ⟨fun _ => none, []⟩ (us.map fun u => (u.owner, u.toUp))

/-- The statuses and notifiers are what the updates make of them. -/
structure Recorded (w : NotifierWorld) : Prop where
  switches : w.state.switches = switchesAfter w.updates
  waiters : ∀ x ∈ w.waiters, x.since ≤ w.updates.length ∧ (switchesAfter (w.updates.take x.since)).off x.owner = some x.upRx
  up : ∀ e, (w.state.notifierForUp e).isNone = upAfter true (w.updatesOf e)
  lastDown : ∀ j, (w.state.links j).lastDown = (realDowns true (w.updatesOf (.link j))).getLast?

namespace Recorded

variable {w w' : NotifierWorld}

theorem start (net : InMemoryNetwork) (now : Nat) : (start net now).Recorded where
  switches := by
    refine congrArg (Switches.mk · []) (funext fun e => ?_)
    cases e <;> rfl
  waiters := by simp [NotifierWorld.start]
  up e := by cases e <;> rfl
  lastDown j := rfl

theorem update (h : w.Recorded) {s' : State} {u : StatusUpdate}
    (hswitches : s'.switches = w.state.switches.turn u.owner u.toUp)
    (hlastDown : ∀ j, (s'.links j).lastDown =
      if u.owner = .link j ∧ (w.state.notifierForUp (.link j)).isNone = true ∧ u.toUp = false then some u.time
      else (w.state.links j).lastDown) :
    Recorded { w with state := s', updates := w.updates ++ [u] } := by
  have hof : ∀ e, updatesOf { w with state := s', updates := w.updates ++ [u] } e =
      w.updatesOf e ++ if u.owner = e then [u] else [] := by
    intro e
    by_cases he : u.owner = e <;> simp [updatesOf, List.filter_append, he]
  refine ⟨?_, fun x hx => ?_, fun e => ?_, fun j => ?_⟩
  · rw [hswitches, h.switches, switchesAfter, switchesAfter, List.map_append, List.map_singleton, Switches.turns_snoc]
  · obtain ⟨hle, hoff⟩ := h.waiters x hx
    refine ⟨by simp; omega, ?_⟩
    rwa [List.take_append_of_le_length hle]
  · have hoff : s'.notifierForUp e = (w.state.switches.turn u.owner u.toUp).off e :=
      congrArg (Switches.off · e) hswitches
    rw [hof, hoff, Switches.isNone_turn]
    split_ifs with he
    · rw [upAfter_snoc]
    · rw [List.append_nil]
      exact h.up e
  · rw [hof, hlastDown, h.up]
    by_cases hj : u.owner = .link j
    · rw [if_pos hj, realDowns_snoc]
      cases hup : upAfter true (w.updatesOf (.link j)) <;> cases hu : u.toUp <;> simp [hj, h.lastDown j]
    · rw [if_neg hj, List.append_nil, ← h.lastDown j, if_neg fun hall => hj hall.1]

/-- The link's `last_down` is set by an update to down of a link that is up. -/
theorem lastDown_updateLinkStatus (s : State) (j k : LinkIx) (status : UpdateLinkStatus) :
    ((s.updateLinkStatus j status).links k).lastDown =
      if StatusOwner.link j = .link k ∧ (s.notifierForUp (.link k)).isNone = true ∧ decide (status = .up) = false then some s.now
      else (s.links k).lastDown := by
  rcases eq_or_ne k j with rfl | hne
  · cases h : (s.links k).status <;> cases status <;>
      simp [State.updateLinkStatus, NetworkLink.updateStatus_eq, State.setLink, State.notifierForUp,
        LinkStatus.notifierForLinkUp, h]
  · have hlink : ¬ StatusOwner.link j = .link k := fun heq => hne (StatusOwner.link.inj heq).symm
    simp [State.updateLinkStatus, State.setLink, hne, hlink]

theorem step (w : NotifierWorld) (a : NotifierAction) (w' : NotifierWorld) (h : w.Recorded) (hs : w.step a = some w') :
    w'.Recorded := by
  cases a with
  | advance d =>
    obtain rfl := Option.some.inj hs
    exact ⟨h.switches, h.waiters, h.up, h.lastDown⟩
  | updateLinkStatus j status =>
    obtain rfl := Option.some.inj hs
    exact h.update (w.state.switches_updateLinkStatus j status) fun k => lastDown_updateLinkStatus w.state j k status
  | updateNodeStatus i status =>
    obtain rfl := Option.some.inj hs
    refine h.update (w.state.switches_updateNodeStatus i status) fun k => ?_
    rw [if_neg (by simp)]
    rfl
  | wait e =>
    rw [NotifierWorld.step] at hs
    split at hs
    · obtain rfl := Option.some.inj hs
      exact h
    · rename_i upRx hup
      obtain rfl := Option.some.inj hs
      refine ⟨h.switches, fun x hx => ?_, h.up, h.lastDown⟩
      rcases List.mem_append.1 hx with hx | hx
      · exact h.waiters x hx
      · obtain rfl := List.mem_singleton.1 hx
        refine ⟨Nat.le_refl _, ?_⟩
        rw [List.take_length, ← h.switches]
        exact hup

theorem wf (us : List StatusUpdate) : (switchesAfter us).Wf := Switches.wf_on.turns _

/-- A receiver is pending until the next update to up, and sent to then. -/
theorem pending_iff (h : w.Recorded) {x : Waiter} (hx : x ∈ w.waiters) :
    (x.Pending w.state ↔ ∀ u ∈ w.updates.drop x.since, u.owner = x.owner → u.toUp = false) ∧
      (¬ x.Pending w.state → w.state.oneshots.signalled x.upRx = true) := by
  obtain ⟨hle, hoff⟩ := h.waiters x hx
  have hsince : w.state.switches = (switchesAfter (w.updates.take x.since)).turns
      ((w.updates.drop x.since).map fun u => (u.owner, u.toUp)) := by
    rw [h.switches, switchesAfter, switchesAfter, ← Switches.turns_append, ← List.map_append, List.take_append_drop]
  have hup : (x.owner, true) ∉ (w.updates.drop x.since).map (fun u => (u.owner, u.toUp)) ↔
      ∀ u ∈ w.updates.drop x.since, u.owner = x.owner → u.toUp = false := by
    simp only [List.mem_map, Prod.mk.injEq, not_exists, not_and, Bool.not_eq_true]
  have hwf : w.state.switches.Wf := h.switches ▸ wf w.updates
  have hpending : x.Pending w.state ↔ w.state.switches.Pending x.owner x.upRx := by
    refine and_congr_right fun hnotifier => ?_
    have hunsent : w.state.oneshots[x.upRx]? = some false := hwf.unsent x.owner x.upRx hnotifier
    simp [Oneshots.signalled, hunsent, State.switches]
  have hiff := Switches.pending_turns_iff (wf _) hoff ((w.updates.drop x.since).map fun u => (u.owner, u.toUp))
  rw [← hsince, hup, ← hpending] at hiff
  refine ⟨hiff, fun hnot => ?_⟩
  rw [hiff, ← hup, not_not] at hnot
  have hsent := Switches.sent_turns (wf _) hoff _ hnot
  rw [← hsince] at hsent
  have hsent : w.state.oneshots[x.upRx]? = some true := hsent
  simp [Oneshots.signalled, hsent]

end Recorded

theorem recorded_run (net : InMemoryNetwork) (now : Nat) {as : List NotifierAction} {w : NotifierWorld}
    (hrun : machine.run (start net now) as = some w) : w.Recorded :=
  Machine.run_invariant Recorded.step (Recorded.start net now) hrun

/-- In every history of updates and waiters, a link or node is down exactly if its latest update was to down, and a receiver
that was obtained from one that is down is pending until its next update to up, and is then signalled; a redundant update to
down leaves the channel where it is; and a link's `last_down` is the time at which it last went from up to down. -/
theorem woken_by_recovery (net : InMemoryNetwork) (now : Nat) (as : List NotifierAction) (w : NotifierWorld)
    (hrun : machine.run (start net now) as = some w) :
    (∀ e, (w.state.notifierForUp e).isNone = upAfter true (w.updatesOf e)) ∧
    (∀ x ∈ w.waiters,
      (x.Pending w.state ↔ ∀ u ∈ w.updates.drop x.since, u.owner = x.owner → u.toUp = false) ∧
      (¬ x.Pending w.state → w.state.oneshots.signalled x.upRx = true)) ∧
    (∀ j, (w.state.links j).status.isDown →
      (w.state.links j).updateStatus w.state.oneshots .down w.state.now = (w.state.links j, w.state.oneshots)) ∧
    (∀ i, (w.state.nodes i).isDown →
      (w.state.nodes i).updateStatus w.state.oneshots .down = (w.state.nodes i, w.state.oneshots)) ∧
    ∀ j, (w.state.links j).lastDown = (realDowns true (w.updatesOf (.link j))).getLast? := by
  have h := recorded_run net now hrun
  exact ⟨h.up, fun x hx => h.pending_iff hx, fun j hdown => NetworkLink.updateStatus_down hdown _ _,
    fun i hdown => NodeState.updateStatus_down hdown _, h.lastDown⟩

/-- A link goes down at 5 and up at 7, with a redundant update and a second waiter in between; a node goes down behind the
link, gets a waiter, and stays down. -/
def downTwice : List NotifierAction :=
  [.advance 5, .updateLinkStatus 0 .down, .wait (.link 0), .updateNodeStatus 1 .down, .wait (.node 1), .advance 1,
    .updateLinkStatus 0 .down, .wait (.link 0), .updateNodeStatus 1 .down, .advance 1, .updateLinkStatus 0 .up]

/-- Both waiters of the link are woken, and the one of the node is not. -/
theorem woken_downTwice : ∃ net, InMemoryNetwork.buildNetwork (hostPair 1000 0) 0 0 = .ok net ∧
    net.links.length = 2 ∧ net.nodes.length = 2 ∧ ∃ w, machine.run (start net 0) downTwice = some w ∧
      w.waiters = [⟨.link 0, 0, 1⟩, ⟨.node 1, 1, 2⟩, ⟨.link 0, 0, 3⟩] ∧ (w.state.links 0).lastDown = some 5 ∧
      w.state.notifierForUp (.link 0) = none ∧ (w.state.notifierForUp (.node 1)).isSome ∧
      ∀ x ∈ w.waiters, x.Pending w.state ↔ x.owner = .node 1 := by
  obtain ⟨net, hnet, hlinks, hnodes⟩ : ∃ net, InMemoryNetwork.buildNetwork (hostPair 1000 0) 0 0 = .ok net ∧
      net.links.length = 2 ∧ net.nodes.length = 2 := by
    have hbuilt : (InMemoryNetwork.buildNetwork (hostPair 1000 0) 0 0).toOption.any
        fun net => net.links.length = 2 ∧ net.nodes.length = 2 := by
      decide +kernel
    cases hnet : InMemoryNetwork.buildNetwork (hostPair 1000 0) 0 0 with
    | error e => rw [hnet] at hbuilt; cases hbuilt
    | ok net =>
      rw [hnet] at hbuilt
      exact ⟨net, rfl, by simpa [Except.toOption] using hbuilt⟩
  obtain ⟨w, hrun, hupdates, hwaiters⟩ : ∃ w, machine.run (start net 0) downTwice = some w ∧
      w.updates = [⟨.link 0, false, 5⟩, ⟨.node 1, false, 5⟩, ⟨.link 0, false, 6⟩, ⟨.node 1, false, 6⟩, ⟨.link 0, true, 7⟩] ∧
      w.waiters = [⟨.link 0, 0, 1⟩, ⟨.node 1, 1, 2⟩, ⟨.link 0, 0, 3⟩] := ⟨_, rfl, rfl, rfl⟩
  obtain ⟨hup, hpending, -, -, hlastDown⟩ := woken_by_recovery net 0 downTwice w hrun
  refine ⟨net, hnet, hlinks, hnodes, w, hrun, hwaiters, ?_, ?_, ?_, fun x hx => ?_⟩
  · rw [hlastDown 0, updatesOf, hupdates]
    decide
  · rw [← Option.isNone_iff_eq_none, hup, updatesOf, hupdates]
    decide
  · rw [← Option.not_isNone, hup, updatesOf, hupdates]
    decide
  · rw [(hpending x hx).1, hupdates]
    rw [hwaiters] at hx
    revert x
    decide

end NotifierWorld

end QuicWorkbench
