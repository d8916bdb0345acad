import QuicWorkbench.Lib.Machine
import Mathlib.Algebra.BigOperators.Group.List.Basic
import Mathlib.Algebra.BigOperators.Group.Finset.Basic
import Mathlib.Tactic.Ring

/-!
# Potentials

A potential that some steps lower, and the others do not raise, bounds how many of them a run takes (`count_add_le`); and if
whoever is not at rest can take such a step, then the machine comes to rest (`exists_rest`). The potential of a system of
tasks is a sum over the tasks, of which a step changes one (`sum_map_set`, `sum_range_of_ne`).
-/

namespace Machine

variable {σ α : Type*} {M : Machine σ α} {I : σ → Prop} {s s' : σ} {as : List α}

/-- How many steps of the run `p` counts, in the states that they are taken from. -/
def count (M : Machine σ α) (p : σ → α → Bool) (s : σ) : List α → ℕ
  | [] => 0
  | a :: as => (if p s a then 1 else 0) + ((M.step s a).map fun s' => M.count p s' as).getD 0

/-- The steps that `p` counts lower the potential, and the other ones of the run do not raise it. -/
theorem count_add_le {Φ : σ → ℕ} {p : σ → α → Bool} {q : α → Prop}
    (hstep : ∀ s a s', I s → q a → M.step s a = some s' → I s' ∧ Φ s' + (if p s a then 1 else 0) ≤ Φ s) (hI : I s)
    (hq : ∀ a ∈ as, q a) (hrun : M.run s as = some s') : M.count p s as + Φ s' ≤ Φ s := by
  induction as generalizing s with
  | nil =>
    obtain rfl := Option.some.inj hrun
    simp [count]
  | cons a as ih =>
    obtain ⟨t, ht, hrest⟩ := run_cons_eq_some.1 hrun
    obtain ⟨hI', hle⟩ := hstep s a t hI (hq a (List.mem_cons_self ..)) ht
    have ih := ih hI' (fun b hb => hq b (List.mem_cons_of_mem _ hb)) hrest
    rw [count, ht, Option.map_some, Option.getD_some]
    omega

/-- Where `p` does not look at the state, it counts actions. -/
theorem count_eq_countP {p : α → Bool} (hrun : M.run s as = some s') : M.count (fun _ a => p a) s as = as.countP p := by
  induction as generalizing s with
  | nil => rfl
  | cons a as ih =>
    obtain ⟨t, ht, hrest⟩ := run_cons_eq_some.1 hrun
    rw [count, ht, Option.map_some, Option.getD_some, ih hrest, List.countP_cons, Nat.add_comm]

theorem countP_add_le {Φ : σ → ℕ} {p : α → Bool}
    (hstep : ∀ s a s', I s → M.step s a = some s' → I s' ∧ Φ s' + (if p a then 1 else 0) ≤ Φ s) (hI : I s)
    (hrun : M.run s as = some s') : as.countP p + Φ s' ≤ Φ s := by
  rw [← count_eq_countP hrun]
  exact count_add_le (q := fun _ => True) (fun s a s' h _ => hstep s a s' h) hI (fun _ _ => trivial) hrun

/-- A machine that can take a step that lowers the potential, unless it is at rest, takes such steps until it is. -/
theorem exists_rest {Φ : σ → ℕ} {p : σ → α → Bool} {q : α → Prop}
    (hmove : ∀ s a, I s → p s a → q a ∧ ∃ s', M.step s a = some s' ∧ I s' ∧ Φ s' < Φ s) (hI : I s) :
    ∃ as s', (∀ a ∈ as, q a) ∧ M.run s as = some s' ∧ I s' ∧ ∀ a, p s' a = false := by
  induction hn : Φ s using Nat.strong_induction_on generalizing s with
  | _ n ih =>
    subst hn
    by_cases hrest : ∀ a, p s a = false
    · exact ⟨[], s, by simp, rfl, hI, hrest⟩
    · obtain ⟨a, ha⟩ := not_forall.1 hrest
      have ha : p s a = true := by simpa using ha
      obtain ⟨hq, t, ht, hI', hlt⟩ := hmove s a hI ha
      obtain ⟨as, s', hqs, hrun, hI'', hrest⟩ := ih (Φ t) hlt hI' rfl
      exact ⟨a :: as, s', List.forall_mem_cons.2 ⟨hq, hqs⟩, run_cons_eq_some.2 ⟨t, ht, hrun⟩, hI'', hrest⟩

/-- What the actions of a kind preserve, a run of such actions preserves. -/
theorem run_invariant_of_forall {q : α → Prop} (hstep : ∀ s a s', I s → q a → M.step s a = some s' → I s') (hI : I s)
    (hq : ∀ a ∈ as, q a) (hrun : M.run s as = some s') : I s' := by
  induction as generalizing s with
  | nil => exact Option.some.inj hrun ▸ hI
  | cons a as ih =>
    obtain ⟨t, ht, hrest⟩ := run_cons_eq_some.1 hrun
    rw [List.forall_mem_cons] at hq
    exact ih (hstep s a t hI hq.1 ht) hq.2 hrest

end Machine

namespace Progress

/-- A sum over tasks, of which one changes. -/
theorem sum_map_set {α : Type*} {tasks : List α} {i : ℕ} {a : α} (h : tasks[i]? = some a) (f : α → ℕ) (b : α) :
    ((tasks.set i b).map f).sum + f a = (tasks.map f).sum + f b := by
  induction tasks generalizing i with
  | nil => simp at h
  | cons x tasks ih =>
    cases i with
    | zero =>
      obtain rfl : x = a := Option.some.inj h
      simp only [List.set_cons_zero, List.map_cons, List.sum_cons]
      omega
    | succ i =>
      have ih := ih (i := i) h
      simp only [List.set_cons_succ, List.map_cons, List.sum_cons]
      omega

/-- Likewise where the tasks are numbered. -/
theorem sum_range_of_ne {n i : ℕ} {f g : ℕ → ℕ} (hi : i < n) (h : ∀ k, k ≠ i → g k = f k) :
    (∑ k ∈ Finset.range n, g k) + f i = (∑ k ∈ Finset.range n, f k) + g i := by
  have hmem : i ∈ Finset.range n := Finset.mem_range.2 hi
  have hrest : ∑ k ∈ (Finset.range n).erase i, g k = ∑ k ∈ (Finset.range n).erase i, f k :=
    Finset.sum_congr rfl fun k hk => h k (Finset.ne_of_mem_erase hk)
  rw [← Finset.add_sum_erase _ g hmem, ← Finset.add_sum_erase _ f hmem, hrest]
  omega

/-- Whatever it is that one of them gets in addition, the sum gets no more. -/
theorem sum_range_le_of_ne {n i c : ℕ} {f g : ℕ → ℕ} (h : ∀ k, k ≠ i → g k = f k) (hi : g i ≤ f i + c) :
    ∑ k ∈ Finset.range n, g k ≤ (∑ k ∈ Finset.range n, f k) + c := by
  by_cases hin : i < n
  · have hsum := sum_range_of_ne hin h
    omega
  · have hsame : ∑ k ∈ Finset.range n, g k = ∑ k ∈ Finset.range n, f k :=
      Finset.sum_congr rfl fun k hk => h k (by have := Finset.mem_range.1 hk; omega)
    omega

end Progress
