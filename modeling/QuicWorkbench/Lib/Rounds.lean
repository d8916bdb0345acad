import Mathlib.Data.List.Chain
import Mathlib.Data.Nat.Basic
import Mathlib.Algebra.BigOperators.Group.List.Basic
import Mathlib.Algebra.Order.BigOperators.Group.List
import Mathlib.Tactic.Ring

/-!
# Rounds

Something is done in rounds, a period apart. In a window of time there are as many rounds as periods that fit, and one more;
so the items of the rounds in a window weigh no more than that many rounds.
-/

namespace Rounds

/-- One after the other, `period` apart. -/
def Spaced (period : ℕ) (times : List ℕ) : Prop := times.IsChain fun t t' => t + period ≤ t'

namespace Spaced
variable {period : ℕ} {times : List ℕ}

theorem pairwise (h : Spaced period times) : times.Pairwise fun t t' => t + period ≤ t' :=
  haveI : IsTrans ℕ fun t t' => t + period ≤ t' := ⟨fun _ _ _ h₁ h₂ => (h₁.trans (Nat.le_add_right ..)).trans h₂⟩
  List.isChain_iff_pairwise.1 h

theorem snoc (h : Spaced period times) {t : ℕ} (ht : ∀ t' ∈ times.getLast?, t' + period ≤ t) : Spaced period (times ++ [t]) :=
  List.isChain_append.2 ⟨h, List.isChain_singleton _, fun t' ht' _ hlast => Option.some.inj hlast ▸ ht t' ht'⟩

end Spaced

/-- Instants a period apart are far from each other. -/
theorem length_mul_le {period : ℕ} {times : List ℕ} (h : times.Pairwise fun t t' => t + period ≤ t') {a b : ℕ}
    (hwindow : ∀ t ∈ times, a ≤ t ∧ t ≤ b) (hne : times ≠ []) : a + (times.length - 1) * period ≤ b := by
  induction times generalizing a with
  | nil => exact absurd rfl hne
  | cons t times ih =>
    obtain ⟨hfirst, hrest⟩ := List.pairwise_cons.1 h
    have ht := hwindow t (List.mem_cons_self ..)
    cases times with
    | nil => simpa using ht.1.trans ht.2
    | cons t' times =>
      have := ih (a := t + period) hrest
        (fun u hu => ⟨hfirst u hu, (hwindow u (List.mem_cons_of_mem _ hu)).2⟩) (by simp)
      simp only [List.length_cons, Nat.add_sub_cancel, Nat.add_mul, Nat.one_mul] at this ⊢
      omega

/-- How many of them there are in a window. -/
theorem length_filter_le {period : ℕ} (hperiod : 0 < period) {times : List ℕ} (h : Spaced period times) (a d : ℕ) :
    (times.filter fun t => a ≤ t ∧ t ≤ a + d).length ≤ d / period + 1 := by
  by_cases hne : (times.filter fun t => a ≤ t ∧ t ≤ a + d) = []
  · rw [hne]
    exact Nat.zero_le _
  · have hmul := length_mul_le (h.pairwise.sublist List.filter_sublist) (a := a) (b := a + d)
      (fun t ht => by simpa using (List.mem_filter.1 ht).2) hne
    have hle : (times.filter fun t => a ≤ t ∧ t ≤ a + d).length - 1 ≤ d / period :=
      (Nat.le_div_iff_mul_le hperiod).2 (by omega)
    omega

section
variable {α : Type*} {bound : ℕ} {weight : α → ℕ} {rounds : List (ℕ × List α)}

/-- The items of rounds, each of which weighs at most `bound`. -/
theorem sum_le_length_mul (hbound : ∀ r ∈ rounds, (r.2.map weight).sum ≤ bound) :
    ((rounds.flatMap Prod.snd).map weight).sum ≤ rounds.length * bound := by
  induction rounds with
  | nil => simp
  | cons r rounds ih =>
    have hr := hbound r (List.mem_cons_self ..)
    have ih := ih fun r' hr' => hbound r' (List.mem_cons_of_mem _ hr')
    rw [List.flatMap_cons, List.map_append, List.sum_append, List.length_cons, Nat.add_mul, Nat.one_mul]
    omega

/-- The items of rounds, each of which weighs the same. -/
theorem sum_eq_length_mul (hweight : ∀ r ∈ rounds, (r.2.map weight).sum = bound) :
    ((rounds.flatMap Prod.snd).map weight).sum = rounds.length * bound := by
  induction rounds with
  | nil => simp
  | cons r rounds ih =>
    have ih := ih fun r' hr' => hweight r' (List.mem_cons_of_mem _ hr')
    rw [List.flatMap_cons, List.map_append, List.sum_append, hweight r (List.mem_cons_self ..), ih, List.length_cons,
      Nat.succ_mul, Nat.add_comm]

/-- The items of rounds in a window. -/
theorem sum_window_le {period : ℕ} (hperiod : 0 < period) {time : α → ℕ}
    (hspaced : Spaced period (rounds.map Prod.fst)) (htime : ∀ r ∈ rounds, ∀ x ∈ r.2, time x = r.1)
    (hbound : ∀ r ∈ rounds, (r.2.map weight).sum ≤ bound) (a d : ℕ) :
    (((rounds.flatMap Prod.snd).filter fun x => a ≤ time x ∧ time x ≤ a + d).map weight).sum ≤ (d / period + 1) * bound := by
  -- a round is in the window or it is not
  have hrounds : (rounds.flatMap Prod.snd).filter (fun x => a ≤ time x ∧ time x ≤ a + d) =
      (rounds.filter fun r => a ≤ r.1 ∧ r.1 ≤ a + d).flatMap Prod.snd := by
    clear hspaced hbound
    induction rounds with
    | nil => rfl
    | cons r rounds ih =>
      have hr := htime r (List.mem_cons_self ..)
      have ih := ih fun r' hr' => htime r' (List.mem_cons_of_mem _ hr')
      rw [List.flatMap_cons, List.filter_append, ih, List.filter_cons]
      split_ifs with hin
      · rw [List.flatMap_cons, List.filter_eq_self.2 fun x hx => by simpa [hr x hx] using hin]
      · rw [List.filter_eq_nil_iff.2 fun x hx => by simpa [hr x hx] using hin, List.nil_append]
  have hcount : (rounds.filter fun r => a ≤ r.1 ∧ r.1 ≤ a + d).length ≤ d / period + 1 := by
    have := length_filter_le hperiod hspaced a d
    rwa [List.filter_map, List.length_map] at this
  rw [hrounds]
  calc (((rounds.filter fun r => a ≤ r.1 ∧ r.1 ≤ a + d).flatMap Prod.snd).map weight).sum
      ≤ (rounds.filter fun r => a ≤ r.1 ∧ r.1 ≤ a + d).length * bound :=
        sum_le_length_mul fun r hr => hbound r (List.mem_of_mem_filter hr)
    _ ≤ (d / period + 1) * bound := Nat.mul_le_mul_right _ hcount

end
end Rounds
