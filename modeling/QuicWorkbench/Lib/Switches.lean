import Mathlib.Data.List.Basic
import Mathlib.Logic.Function.Basic

/-!
# Switches with notifiers

A family of switches, all of them on or off. A switch that goes off creates a oneshot channel and keeps the sender until it
goes on, when it sends. Whoever waits for a switch holds a receiver of its channel: it is pending as long as the switch has
the sender, and would be cancelled if the switch lost it without sending. `pending_turns_iff` says that a receiver is pending
exactly until its switch is turned on, and `sent_turns` that it is sent to then.
-/

/-- `off i` is the channel of a switch that is off; `sent` says of each channel created so far whether it was sent to. -/
structure Switches (ι : Type*) where
  off : ι → Option Nat
  sent : List Bool

namespace Switches

variable {ι : Type*} [DecidableEq ι]

def turn (s : Switches ι) (i : ι) (on : Bool) : Switches ι :=
  match s.off i, on with
  | some c, true => { off := Function.update s.off i none, sent := s.sent.set c true }
  | none, false => { off := Function.update s.off i (some s.sent.length), sent := s.sent ++ [false] }
  | some _, false | none, true => s

/-- What turning a switch makes of its channel and of what was sent. -/
def turnOne (off : Option Nat) (sent : List Bool) (on : Bool) : Option Nat × List Bool :=
  match off, on with
  | some c, true => (none, sent.set c true)
  | none, false => (some sent.length, sent ++ [false])
  | some c, false => (some c, sent)
  | none, true => (none, sent)

/-- Turn switches on and off, in order. -/
def turns (s : Switches ι) (l : List (ι × Bool)) : Switches ι := l.foldl (fun s x => s.turn x.1 x.2) s

/-- The receiver of the channel `c` of switch `i` is pending: the sender is still there, and has not sent. -/
def Pending (s : Switches ι) (i : ι) (c : Nat) : Prop := s.off i = some c ∧ s.sent[c]? = some false

/-- The receiver of the channel `c` was sent to, or its switch `i` is off and will send to it. -/
def Awaited (s : Switches ι) (i : ι) (c : Nat) : Prop := s.sent[c]? = some true ∨ s.off i = some c

/-- The switches that are off have channels of their own, and have not sent to them. -/
structure Wf (s : Switches ι) : Prop where
  unsent : ∀ i c, s.off i = some c → s.sent[c]? = some false
  inj : ∀ i j c, s.off i = some c → s.off j = some c → i = j

variable {s : Switches ι} {i j : ι} {c : Nat} {on : Bool}

/-- To turn a switch on that is on, or off one that is off, does nothing. -/
theorem turn_of_eq (h : (s.off i).isNone = on) : s.turn i on = s := by
  subst h
  cases hi : s.off i <;> simp [turn, hi]

theorem turn_on (h : s.off i = some c) :
    s.turn i true = { off := Function.update s.off i none, sent := s.sent.set c true } := by
  simp [turn, h]

theorem turn_off (h : s.off i = none) :
    s.turn i false = { off := Function.update s.off i (some s.sent.length), sent := s.sent ++ [false] } := by
  simp [turn, h]

theorem turn_eq_update (s : Switches ι) (i : ι) (on : Bool) : s.turn i on =
    { off := Function.update s.off i (turnOne (s.off i) s.sent on).1, sent := (turnOne (s.off i) s.sent on).2 } := by
  have hself : Function.update s.off i (s.off i) = s.off := Function.update_eq_self i s.off
  cases hi : s.off i with
  | none =>
    rw [hi] at hself
    cases on with
    | true => simp [turn, turnOne, hi, hself]
    | false => simp [turn, turnOne, hi]
  | some c =>
    rw [hi] at hself
    cases on with
    | true => simp [turn, turnOne, hi]
    | false => simp [turn, turnOne, hi, hself]

/-- Everything that turning a switch can do. -/
inductive Turned (s : Switches ι) (i : ι) (on : Bool) : Switches ι → Prop
  /-- It was in that position. -/
  | same (h : (s.off i).isNone = on) : Turned s i on s
  | on (c : Nat) (h : s.off i = some c) (hon : on = true) :
      Turned s i on { off := Function.update s.off i none, sent := s.sent.set c true }
  | off (h : s.off i = none) (hon : on = false) :
      Turned s i on { off := Function.update s.off i (some s.sent.length), sent := s.sent ++ [false] }

theorem turned (s : Switches ι) (i : ι) (on : Bool) : s.Turned i on (s.turn i on) := by
  cases hi : s.off i with
  | none =>
    cases on with
    | true =>
      rw [turn_of_eq (by simp [hi])]
      exact .same (by simp [hi])
    | false =>
      rw [turn_off hi]
      exact .off hi rfl
  | some c =>
    cases on with
    | true =>
      rw [turn_on hi]
      exact .on c hi rfl
    | false =>
      rw [turn_of_eq (by simp [hi])]
      exact .same (by simp [hi])

/-- A switch is in the position that it was turned to last. -/
theorem isNone_turn (s : Switches ι) (i : ι) (on : Bool) (j : ι) :
    ((s.turn i on).off j).isNone = if i = j then on else (s.off j).isNone := by
  have hturned := s.turned i on
  generalize s.turn i on = s' at hturned
  rcases eq_or_ne i j with rfl | hne
  · cases hturned with
    | same h => simp [h]
    | on c h hon => simp [hon]
    | off h hon => simp [hon]
  · cases hturned <;> simp [Function.update_of_ne hne.symm, hne]

omit [DecidableEq ι] in
theorem wf_on : (⟨fun _ => none, []⟩ : Switches ι).Wf := ⟨by simp, by simp⟩

omit [DecidableEq ι] in
theorem Wf.pending (hs : s.Wf) (h : s.off i = some c) : s.Pending i c := ⟨h, hs.unsent i c h⟩

omit [DecidableEq ι] in
theorem Wf.lt (hs : s.Wf) (h : s.off i = some c) : c < s.sent.length :=
  (List.getElem?_eq_some_iff.1 (hs.unsent i c h)).1

theorem Wf.turn (hs : s.Wf) (j : ι) (on : Bool) : (s.turn j on).Wf := by
  have hturned := s.turned j on
  generalize s.turn j on = s' at hturned
  cases hturned with
  | same => exact hs
  | on d hj =>
    refine ⟨fun i c h => ?_, fun i i' c h h' => ?_⟩
    · simp only [Function.update_apply] at h
      split_ifs at h with hij
      have hd : d ≠ c := by
        rintro rfl
        exact hij (hs.inj i j d h hj)
      rw [List.getElem?_set_ne hd, hs.unsent i c h]
    · simp only [Function.update_apply] at h h'
      split_ifs at h h'
      exact hs.inj i i' c h h'
  | off hj =>
    refine ⟨fun i c h => ?_, fun i i' c h h' => ?_⟩
    · simp only [Function.update_apply] at h
      split_ifs at h with hij
      · rw [Option.some.injEq] at h
        simp [← h]
      · rw [List.getElem?_append_left (hs.lt h), hs.unsent i c h]
    · simp only [Function.update_apply] at h h'
      split_ifs at h h' with hi hi' hi'
      · rw [hi, hi']
      · have := hs.lt h'
        rw [Option.some.injEq] at h
        omega
      · have := hs.lt h
        rw [Option.some.injEq] at h'
        omega
      · exact hs.inj i i' c h h'

/-- What was sent to stays sent to. -/
theorem sent_turn (hs : s.Wf) (h : s.sent[c]? = some true) : (s.turn j on).sent[c]? = some true := by
  have hturned := s.turned j on
  generalize s.turn j on = s' at hturned
  cases hturned with
  | same => exact h
  | on d hj =>
    have hd : d ≠ c := by
      rintro rfl
      simp [hs.unsent j d hj] at h
    rw [List.getElem?_set_ne hd, h]
  | off hj =>
    obtain ⟨hc, -⟩ := List.getElem?_eq_some_iff.1 h
    rw [List.getElem?_append_left hc, h]

theorem Pending.sent_turn (h : s.Pending i c) : (s.turn i true).sent[c]? = some true := by
  obtain ⟨hoff, hsent⟩ := h
  obtain ⟨hc, -⟩ := List.getElem?_eq_some_iff.1 hsent
  simp [Switches.turn, hoff, hc]

/-- A receiver stays pending when another switch is turned, or its own switch is turned off again. -/
theorem Pending.turn (hs : s.Wf) (h : s.Pending i c) (hij : ¬ (j = i ∧ on = true)) : (s.turn j on).Pending i c := by
  obtain ⟨hoff, hsent⟩ := h
  have hturned := s.turned j on
  generalize s.turn j on = s' at hturned
  cases hturned with
  | same => exact ⟨hoff, hsent⟩
  | on d hj hon =>
    have hne : i ≠ j := fun heq => hij ⟨heq.symm, hon⟩
    have hd : d ≠ c := by
      rintro rfl
      exact hne (hs.inj i j d hoff hj)
    exact ⟨by simp [Function.update_of_ne hne, hoff], by rw [List.getElem?_set_ne hd, hsent]⟩
  | off hj =>
    have hne : i ≠ j := by
      rintro rfl
      simp [hj] at hoff
    exact ⟨by simp [Function.update_of_ne hne, hoff], by rw [List.getElem?_append_left (hs.lt hoff), hsent]⟩

/-- Whoever awaits a switch goes on doing so, or is sent to. -/
theorem Awaited.turn (hs : s.Wf) (h : s.Awaited i c) (j : ι) (on : Bool) : (s.turn j on).Awaited i c := by
  rcases h with hsent | hoff
  · exact .inl (sent_turn hs hsent)
  · by_cases hij : j = i ∧ on = true
    · obtain ⟨rfl, rfl⟩ := hij
      exact .inl (hs.pending hoff).sent_turn
    · exact .inr ((hs.pending hoff).turn hs hij).1

theorem turns_append (s : Switches ι) (l l' : List (ι × Bool)) : s.turns (l ++ l') = (s.turns l).turns l' :=
  List.foldl_append

theorem turns_snoc (s : Switches ι) (l : List (ι × Bool)) (x : ι × Bool) :
    s.turns (l ++ [x]) = (s.turns l).turn x.1 x.2 := turns_append s l [x]

theorem Wf.turns (hs : s.Wf) (l : List (ι × Bool)) : (s.turns l).Wf := by
  induction l generalizing s with
  | nil => exact hs
  | cons x l ih => exact ih (hs.turn x.1 x.2)

theorem sent_turns_of_sent (hs : s.Wf) (h : s.sent[c]? = some true) (l : List (ι × Bool)) :
    (s.turns l).sent[c]? = some true := by
  induction l generalizing s with
  | nil => exact h
  | cons x l ih => exact ih (hs.turn x.1 x.2) (sent_turn hs h)

/-- The receiver of a switch that is off is sent to once the switch is turned on. -/
theorem sent_turns (hs : s.Wf) (h : s.off i = some c) (l : List (ι × Bool)) (hon : (i, true) ∈ l) :
    (s.turns l).sent[c]? = some true := by
  induction l generalizing s with
  | nil => simp at hon
  | cons x l ih =>
    by_cases hx : x.1 = i ∧ x.2 = true
    · obtain rfl : x = (i, true) := Prod.ext hx.1 hx.2
      exact sent_turns_of_sent (hs.turn i true) (hs.pending h).sent_turn l
    · have hl : (i, true) ∈ l := by
        rcases List.mem_cons.1 hon with rfl | hl
        · exact absurd ⟨rfl, rfl⟩ hx
        · exact hl
      exact ih (hs.turn x.1 x.2) ((hs.pending h).turn hs hx).1 hl

/-- It is pending exactly as long as the switch is not turned on. -/
theorem pending_turns_iff (hs : s.Wf) (h : s.off i = some c) (l : List (ι × Bool)) :
    (s.turns l).Pending i c ↔ (i, true) ∉ l := by
  constructor
  · intro hpending hon
    have := hpending.2
    rw [sent_turns hs h l hon] at this
    simp at this
  · intro hon
    induction l generalizing s with
    | nil => exact hs.pending h
    | cons x l ih =>
      have hx : ¬ (x.1 = i ∧ x.2 = true) := fun hx => hon (by simp [← hx.1, ← hx.2])
      exact ih (hs.turn x.1 x.2) ((hs.pending h).turn hs hx).1 fun hl => hon (List.mem_cons_of_mem _ hl)

end Switches
