import Mathlib.Logic.Relation
import Mathlib.Data.List.Basic
import Mathlib.Order.Basic

/-!
# Executable machines and their runs

A machine resolves all its nondeterminism in the action: `step s a` is the state after `a`, or
`none` where `a` is not enabled. `run` chains steps, so that a run on concrete actions computes.
The rules below turn a step lemma into a run lemma, with or without a condition (`Guarded`) that
every step of the run has to meet in the state it is taken from.
-/

/-- A machine with states `σ` and actions `α`. -/
structure Machine (σ α : Type*) where
  step : σ → α → Option σ

namespace Machine

variable {σ α : Type*} (M : Machine σ α)

/-- The state after performing the actions in order. -/
def run (s : σ) : List α → Option σ
  | [] => some s
  | a :: as => (M.step s a).bind fun s' => run s' as

/-- Every action of the run meets `C` in the state it is performed in. -/
def Guarded (C : σ → α → Prop) (s : σ) : List α → Prop
  | [] => True
  | a :: as => C s a ∧ ∀ s', M.step s a = some s' → Guarded C s' as

variable {M} {s s' s'' : σ} {a : α} {as bs : List α} {C D : σ → α → Prop} {I : σ → Prop}

@[simp] theorem run_nil : M.run s [] = some s := rfl

theorem run_cons : M.run s (a :: as) = (M.step s a).bind fun s' => M.run s' as := rfl

theorem run_cons_eq_some :
    M.run s (a :: as) = some s'' ↔ ∃ s', M.step s a = some s' ∧ M.run s' as = some s'' := by
  rw [run_cons, Option.bind_eq_some_iff]

theorem run_append_eq_some :
    M.run s (as ++ bs) = some s'' ↔ ∃ s', M.run s as = some s' ∧ M.run s' bs = some s'' := by
  induction as generalizing s with
  | nil => simp
  | cons a as ih =>
    rw [List.cons_append, run_cons_eq_some]
    simp only [ih, run_cons_eq_some]
    constructor
    · rintro ⟨t, ht, s', hs', hrun⟩
      exact ⟨s', ⟨t, ht, hs'⟩, hrun⟩
    · rintro ⟨s', ⟨t, ht, hs'⟩, hrun⟩
      exact ⟨t, ht, s', hs', hrun⟩

theorem guarded_cons :
    M.Guarded C s (a :: as) ↔ C s a ∧ ∀ s', M.step s a = some s' → M.Guarded C s' as := Iff.rfl

theorem guarded_cons_of_none (h : M.step s a = none) : M.Guarded C s (a :: as) ↔ C s a := by
  simp [guarded_cons, h]

theorem guarded_cons_of_some (h : M.step s a = some s') :
    M.Guarded C s (a :: as) ↔ C s a ∧ M.Guarded C s' as := by
  simp [guarded_cons, h]

/-- A condition that can be checked can be checked along a run. -/
instance decidableGuarded [∀ s a, Decidable (C s a)] : ∀ s as, Decidable (M.Guarded C s as)
  | _, [] => isTrue trivial
  | s, a :: as =>
    match h : M.step s a with
    | none => decidable_of_iff _ (guarded_cons_of_none h).symm
    | some s' =>
      have := decidableGuarded s' as
      decidable_of_iff _ (guarded_cons_of_some h).symm

theorem Guarded.mono (hCD : ∀ s a, C s a → D s a) (h : M.Guarded C s as) : M.Guarded D s as := by
  induction as generalizing s with
  | nil => trivial
  | cons a as ih => exact ⟨hCD _ _ h.1, fun s' hs => ih (h.2 s' hs)⟩

/-- What a guarded step preserves, a guarded run preserves. -/
theorem run_invariant_of_guarded (hstep : ∀ s a s', I s → C s a → M.step s a = some s' → I s')
    (hC : M.Guarded C s as) (hI : I s) (hrun : M.run s as = some s') : I s' := by
  induction as generalizing s with
  | nil => rw [run_nil, Option.some.injEq] at hrun; exact hrun ▸ hI
  | cons a as ih =>
    obtain ⟨t, ht, hrun⟩ := run_cons_eq_some.1 hrun
    exact ih (hC.2 t ht) (hstep s a t hI hC.1 ht) hrun

/-- What every step preserves, every run preserves. -/
theorem run_invariant (hstep : ∀ s a s', I s → M.step s a = some s' → I s') (hI : I s)
    (hrun : M.run s as = some s') : I s' := by
  induction as generalizing s with
  | nil => rw [run_nil, Option.some.injEq] at hrun; exact hrun ▸ hI
  | cons a as ih =>
    obtain ⟨t, ht, hrun⟩ := run_cons_eq_some.1 hrun
    exact ih (hstep s a t hI ht) hrun

/-- Where a step keeps `H` exactly if it meets `C`, a run keeps it exactly if all its steps do. -/
theorem run_iff_guarded {H : σ → Prop} (hstep : ∀ s a s', M.step s a = some s' → (H s' ↔ H s ∧ C s a))
    (hrun : M.run s as = some s') : H s' ↔ H s ∧ M.Guarded C s as := by
  induction as generalizing s with
  | nil =>
    obtain rfl := Option.some.inj hrun
    simp [Guarded]
  | cons a as ih =>
    obtain ⟨t, ht, hrun⟩ := run_cons_eq_some.1 hrun
    rw [ih hrun, hstep s a t ht, guarded_cons_of_some ht, and_assoc]

end Machine

/-- What each of the elementary effects `R` preserves, any chain of them preserves. -/
theorem Relation.ReflTransGen.preserves {σ : Type*} {R : σ → σ → Prop} {I : σ → Prop} {s s' : σ}
    (hR : ∀ s s', R s s' → I s → I s') (h : Relation.ReflTransGen R s s') (hI : I s) : I s' := by
  induction h with
  | refl => exact hI
  | tail _ hst ih => exact hR _ _ hst ih
