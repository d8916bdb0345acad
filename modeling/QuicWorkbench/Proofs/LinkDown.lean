import QuicWorkbench.Network.Link
import QuicWorkbench.Tracing.Verifier
import Mathlib.Data.List.Induction

/-!
# When a link was down

The simulator remembers when a link was last taken down, the verifier when it last saw a down event. The
first one drops a packet if that was after the send, the second one wants it dropped also if it was at the
instant of the send. `LinkWorld` runs both over the same events and sends; they agree about a packet unless
a down event falls on the instant of its send, and nothing takes the link down later.
-/

namespace QuicWorkbench

inductive LinkOp
  | status (update : UpdateLinkStatus)
  | send (data : InTransitData) (delay slot : Nat)

structure TimedLinkOp where
  time : Nat
  op : LinkOp

/-- A link of the simulator and its replay. -/
structure LinkWorld where
  live : NetworkLink
  oneshots : Oneshots
  replayed : ReplayedLink

namespace LinkWorld

/-- What an event or a send does to both. -/
def step (simulationStart bandwidthBps : Nat) (w : LinkWorld) (x : TimedLinkOp) : LinkWorld :=
  match x.op with
  | .status update =>
    let (live, oneshots) := w.live.updateStatus w.oneshots update x.time
    { live, oneshots, replayed := w.replayed.setStatus update (x.time - simulationStart) }
  | .send data delay slot =>
    { w with
      live := { w.live with
        pacer := w.live.pacer.trackSend x.time data.packetSize
        inTransit := (w.live.inTransit.send data delay x.time slot).1 }
      replayed := match w.replayed.packetSent (x.time - simulationStart) data.packetSize bandwidthBps with
        | some (replayed, _) => replayed
        | none => w.replayed }

def after (simulationStart : Nat) (link : NetworkLinkSpec) (ops : List TimedLinkOp) : LinkWorld :=
  ops.foldl (step simulationStart link.bandwidthBps) { live := .new link, oneshots := [], replayed := {} }

/-- The packet sent at the instant is lost in transit if it arrives now. -/
def Lost (w : LinkWorld) (sent : Nat) : Prop := w.live.wasDownAfter sent

/-- The verifier wants a packet that was sent at the instant not to be received. -/
def MustNotReceive (simulationStart : Nat) (w : LinkWorld) (sent : Nat) : Prop :=
  ∃ lastDown ∈ w.replayed.lastDownRelative, sent - simulationStart ≤ lastDown

end LinkWorld

/-- The status that the last event gave the link; it is up initially. -/
def statusAfter (ops : List TimedLinkOp) : UpdateLinkStatus :=
  ops.foldl (fun status x => match x.op with
    | .status update => update
    | .send .. => status) .up

/-- There is a down event that satisfies `P`. -/
def HasDown (P : Nat → Prop) (ops : List TimedLinkOp) : Prop := ∃ x ∈ ops, x.op = .status .down ∧ P x.time

/-- There is a down event that satisfies `P` and finds the link up. -/
def TakenDown (P : Nat → Prop) (ops : List TimedLinkOp) : Prop :=
  ∃ pre x, pre ++ [x] <+: ops ∧ x.op = .status .down ∧ statusAfter pre = .up ∧ P x.time

section
variable {simulationStart : Nat} {link : NetworkLinkSpec} {ops pre post : List TimedLinkOp} {x : TimedLinkOp}
  {P : Nat → Prop}

theorem statusAfter_snoc (ops : List TimedLinkOp) (x : TimedLinkOp) : statusAfter (ops ++ [x]) =
    match x.op with
    | .status update => update
    | .send .. => statusAfter ops := by
  simp [statusAfter]

theorem after_snoc (simulationStart : Nat) (link : NetworkLinkSpec) (ops : List TimedLinkOp) (x : TimedLinkOp) :
    LinkWorld.after simulationStart link (ops ++ [x]) =
      (LinkWorld.after simulationStart link ops).step simulationStart link.bandwidthBps x := by
  simp [LinkWorld.after]

theorem hasDown_snoc : HasDown P (ops ++ [x]) ↔ HasDown P ops ∨ x.op = .status .down ∧ P x.time := by
  simp only [HasDown, List.mem_append, List.mem_singleton]
  constructor
  · rintro ⟨y, hy | rfl, hdown, hP⟩
    · exact .inl ⟨y, hy, hdown, hP⟩
    · exact .inr ⟨hdown, hP⟩
  · rintro (⟨y, hy, hdown, hP⟩ | ⟨hdown, hP⟩)
    · exact ⟨y, .inl hy, hdown, hP⟩
    · exact ⟨x, .inr rfl, hdown, hP⟩

theorem takenDown_snoc : TakenDown P (ops ++ [x]) ↔
    TakenDown P ops ∨ x.op = .status .down ∧ statusAfter ops = .up ∧ P x.time := by
  constructor
  · rintro ⟨pre, y, hpre, hdown, hup, hP⟩
    rcases List.prefix_concat_iff.1 hpre with heq | hpre
    · obtain ⟨rfl, hxy⟩ := List.append_inj' heq rfl
      obtain rfl := List.singleton_inj.1 hxy
      exact .inr ⟨hdown, hup, hP⟩
    · exact .inl ⟨pre, y, hpre, hdown, hup, hP⟩
  · rintro (⟨pre, y, hpre, hdown, hup, hP⟩ | ⟨hdown, hup, hP⟩)
    · exact ⟨pre, y, hpre.trans (List.prefix_append ..), hdown, hup, hP⟩
    · exact ⟨ops, x, List.prefix_rfl, hdown, hup, hP⟩

theorem TakenDown.hasDown (h : TakenDown P ops) : HasDown P ops := by
  obtain ⟨pre, x, hpre, hdown, -, hP⟩ := h
  exact ⟨x, hpre.subset (by simp), hdown, hP⟩

theorem status_after (simulationStart : Nat) (link : NetworkLinkSpec) (ops : List TimedLinkOp) :
    (LinkWorld.after simulationStart link ops).live.status.toUpdate = statusAfter ops := by
  induction ops using List.reverseRecOn with
  | nil => rfl
  | append_singleton ops x ih =>
    rw [after_snoc, statusAfter_snoc]
    cases hop : x.op with
    | send data delay slot => simpa [LinkWorld.step, hop] using ih
    | status update =>
      simp only [LinkWorld.step, hop, NetworkLink.updateStatus_eq]
      cases hs : (LinkWorld.after simulationStart link ops).live.status <;> cases update <;>
        simp [LinkStatus.toUpdate, hs]

/-- The simulator remembers the last time that the link was taken down. -/
theorem lost_iff (hsorted : ops.Pairwise fun x y => x.time ≤ y.time) (sent : Nat) :
    (LinkWorld.after simulationStart link ops).Lost sent ↔ TakenDown (sent < ·) ops := by
  induction ops using List.reverseRecOn with
  | nil =>
    have hnot : ¬ TakenDown (sent < ·) [] := by
      rintro ⟨pre, x, hpre, -⟩
      simp at hpre
    simpa [LinkWorld.Lost, LinkWorld.after, NetworkLink.new, NetworkLink.wasDownAfter] using hnot
  | append_singleton ops x ih =>
    obtain ⟨hbefore, -, hlast⟩ := List.pairwise_append.1 hsorted
    have ih := ih hbefore
    have hstatus := status_after simulationStart link ops
    rw [after_snoc, takenDown_snoc, ← ih]
    cases hop : x.op with
    | send data delay slot => simp [LinkWorld.step, hop, LinkWorld.Lost, NetworkLink.wasDownAfter]
    | status update =>
      cases hs : (LinkWorld.after simulationStart link ops).live.status with
      | down upRx =>
        rw [hs, LinkStatus.toUpdate] at hstatus
        cases update <;>
          simp [LinkWorld.step, hop, NetworkLink.updateStatus_eq, hs, LinkWorld.Lost, NetworkLink.wasDownAfter, ← hstatus]
      | up =>
        rw [hs, LinkStatus.toUpdate] at hstatus
        cases update with
        | up => simp [LinkWorld.step, hop, NetworkLink.updateStatus_eq, hs, LinkWorld.Lost]
        | down =>
          have hlost : ((LinkWorld.after simulationStart link ops).step simulationStart link.bandwidthBps x).Lost sent ↔
              sent < x.time := by
            simp [LinkWorld.step, hop, NetworkLink.updateStatus_eq, hs, LinkWorld.Lost, NetworkLink.wasDownAfter]
          rw [hlost]
          constructor
          · exact fun hlt => .inr ⟨rfl, hstatus.symm, hlt⟩
          · rintro (hlost | ⟨-, -, hlt⟩)
            · -- taken down before, hence no later than now
              obtain ⟨y, hy, -, hlt⟩ := (ih.1 hlost).hasDown
              exact Nat.lt_of_lt_of_le hlt (hlast y hy x (List.mem_singleton_self _))
            · exact hlt

theorem lastDownRelative_packetSent {l l' : ReplayedLink} {now size bandwidthBps usage : Nat}
    (h : l.packetSent now size bandwidthBps = some (l', usage)) :
    l'.lastDownRelative = l.lastDownRelative ∧ l'.status = l.status := by
  unfold ReplayedLink.packetSent at h
  obtain ⟨x, -, hx⟩ := Option.bind_eq_some_iff.1 h
  obtain ⟨rfl, -⟩ := by simpa [pure] using hx
  exact ⟨rfl, rfl⟩

/-- The verifier remembers the last down event. -/
theorem mustNotReceive_iff (hsorted : ops.Pairwise fun x y => x.time ≤ y.time)
    (hstart : ∀ x ∈ ops, simulationStart ≤ x.time) (sent : Nat) :
    (LinkWorld.after simulationStart link ops).MustNotReceive simulationStart sent ↔ HasDown (sent ≤ ·) ops := by
  induction ops using List.reverseRecOn with
  | nil => simp [LinkWorld.MustNotReceive, LinkWorld.after, HasDown]
  | append_singleton ops x ih =>
    obtain ⟨hbefore, -, hlast⟩ := List.pairwise_append.1 hsorted
    have ih := ih hbefore fun y hy => hstart y (List.mem_append_left _ hy)
    have hx := hstart x (by simp)
    rw [after_snoc, hasDown_snoc, ← ih]
    cases hop : x.op with
    | send data delay slot =>
      have hsame : ((LinkWorld.after simulationStart link ops).step simulationStart link.bandwidthBps x).replayed.lastDownRelative =
          (LinkWorld.after simulationStart link ops).replayed.lastDownRelative := by
        simp only [LinkWorld.step, hop]
        split
        · rename_i hsent
          exact (lastDownRelative_packetSent hsent).1
        · rfl
      simp [LinkWorld.MustNotReceive, hsame]
    | status update =>
      cases update with
      | up => simp [LinkWorld.MustNotReceive, LinkWorld.step, hop, ReplayedLink.setStatus]
      | down =>
        have hmust : ((LinkWorld.after simulationStart link ops).step simulationStart link.bandwidthBps x).MustNotReceive
            simulationStart sent ↔ sent ≤ x.time := by
          simp only [LinkWorld.MustNotReceive, LinkWorld.step, hop, ReplayedLink.setStatus, Option.mem_some_iff,
            exists_eq_left']
          omega
        rw [hmust]
        constructor
        · exact fun hle => .inr ⟨rfl, hle⟩
        · rintro (hmust | ⟨-, hle⟩)
          · obtain ⟨y, hy, -, hle⟩ := ih.1 hmust
            exact hle.trans (hlast y hy x (List.mem_singleton_self _))
          · exact hle

/-- A link that is up is taken down by the first down event. -/
theorem takenDown_of_hasDown (hup : statusAfter pre = .up) (hdown : HasDown (fun _ => True) post) :
    ∃ x ∈ post, x.op = .status .down ∧ TakenDown (· = x.time) (pre ++ post) := by
  induction post generalizing pre with
  | nil => simp [HasDown] at hdown
  | cons x post ih =>
    have hsplit : pre ++ x :: post = pre ++ [x] ++ post := by simp
    by_cases hx : x.op = .status .down
    · refine ⟨x, List.mem_cons_self .., hx, pre, x, ?_, hx, hup, rfl⟩
      rw [hsplit]
      exact List.prefix_append ..
    · have hup' : statusAfter (pre ++ [x]) = .up := by
        rw [statusAfter_snoc]
        cases hop : x.op with
        | send data delay slot => exact hup
        | status update =>
          cases update with
          | up => rfl
          | down => exact absurd hop hx
      have hdown' : HasDown (fun _ => True) post := by
        obtain ⟨y, hy, hdown, -⟩ := hdown
        rcases List.mem_cons.1 hy with rfl | hy
        · exact absurd hdown hx
        · exact ⟨y, hy, hdown, trivial⟩
      obtain ⟨y, hy, hy', htaken⟩ := ih hup' hdown'
      rw [hsplit]
      exact ⟨y, List.mem_cons_of_mem _ hy, hy', htaken⟩

theorem TakenDown.mono {Q : Nat → Prop} (hPQ : ∀ t, P t → Q t) (h : TakenDown P ops) : TakenDown Q ops := by
  obtain ⟨pre, x, hpre, hdown, hup, hP⟩ := h
  exact ⟨pre, x, hpre, hdown, hup, hPQ _ hP⟩

end

/-! ### Results -/

/-- For every link, all events and sends in the order of time, and every packet sent on the link while it is up:
simulator and verifier agree, whenever the packet arrives, about whether it may be received, exactly if no down
event falls on the instant of the send, or the link is taken down at a later one. -/
theorem lost_iff_mustNotReceive_iff {simulationStart sent : Nat} {link : NetworkLinkSpec} {pre post : List TimedLinkOp}
    {data : InTransitData} {delay slot : Nat}
    (hsorted : (pre ++ ⟨sent, .send data delay slot⟩ :: post).Pairwise fun x y => x.time ≤ y.time)
    (hstart : ∀ x ∈ pre ++ ⟨sent, .send data delay slot⟩ :: post, simulationStart ≤ x.time)
    (hup : (LinkWorld.after simulationStart link pre).live.status = .up) :
    ((LinkWorld.after simulationStart link (pre ++ ⟨sent, .send data delay slot⟩ :: post)).Lost sent ↔
      (LinkWorld.after simulationStart link (pre ++ ⟨sent, .send data delay slot⟩ :: post)).MustNotReceive
        simulationStart sent) ↔
    ¬ HasDown (· = sent) (pre ++ ⟨sent, .send data delay slot⟩ :: post) ∨
      TakenDown (sent < ·) (pre ++ ⟨sent, .send data delay slot⟩ :: post) := by
  rw [lost_iff hsorted, mustNotReceive_iff hsorted hstart]
  have hup : statusAfter pre = .up := by
    rw [← status_after simulationStart link pre, hup]
    rfl
  obtain ⟨-, -, hbefore⟩ := List.pairwise_append.1 hsorted
  constructor
  · intro hiff
    by_contra hnot
    rw [not_or, not_not] at hnot
    obtain ⟨⟨x, hx, hdown, heq⟩, hnot⟩ := hnot
    exact hnot (hiff.2 ⟨x, hx, hdown, heq.ge⟩)
  · intro hor
    refine ⟨fun htaken => ?_, fun hdown => ?_⟩
    · obtain ⟨x, hx, hdown, hlt⟩ := htaken.hasDown
      exact ⟨x, hx, hdown, hlt.le⟩
    · rcases hor with hno | htaken
      · -- a down event after the instant of the send, so after the send: the first one finds the link up
        obtain ⟨x, hx, hdown, hle⟩ := hdown
        have hne : x.time ≠ sent := fun heq => hno ⟨x, hx, hdown, heq⟩
        have hpost : x ∈ post := by
          rcases List.mem_append.1 hx with hx | hx
          · have := hbefore x hx _ (List.mem_cons_self ..)
            exact absurd (Nat.le_antisymm this hle) hne
          · rcases List.mem_cons.1 hx with rfl | hx
            · exact absurd rfl hne
            · exact hx
        have hup' : statusAfter (pre ++ [⟨sent, .send data delay slot⟩]) = .up := by
          rw [statusAfter_snoc]
          exact hup
        have hsplit : pre ++ ⟨sent, .send data delay slot⟩ :: post = pre ++ [⟨sent, .send data delay slot⟩] ++ post := by
          simp
        obtain ⟨y, hy, hdown', htaken⟩ := takenDown_of_hasDown hup' ⟨x, hpost, hdown, trivial⟩
        rw [hsplit] at hsorted hno ⊢
        refine htaken.mono fun t ht => ?_
        have hge : sent ≤ y.time := (List.pairwise_append.1 hsorted).2.2 ⟨sent, .send data delay slot⟩ (by simp) y hy
        have hne' : y.time ≠ sent := fun heq => hno ⟨y, List.mem_append_right _ hy, hdown', heq⟩
        subst ht
        exact Nat.lt_of_le_of_ne hge (Ne.symm hne')
      · exact htaken

end QuicWorkbench
