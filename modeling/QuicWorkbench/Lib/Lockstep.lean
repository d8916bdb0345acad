import Mathlib.Data.Option.Basic
import Mathlib.Data.List.Basic

/-!
# Folds in lockstep

Two folds that can fail and take the same steps fail together: if the steps keep a relation between the two states
(`Lockstep.foldlM`), or if the states of one are the image of those of the other (`Lockstep.foldlM_map`).
-/

namespace Lockstep
variable {α β σ τ σ' τ' : Type*} {R : σ → τ → Prop} {R' : σ' → τ' → Prop}

theorem bind {x : Option σ} {y : Option τ} {f : σ → Option σ'} {g : τ → Option τ'} (h : Option.Rel R x y)
    (hfg : ∀ s t, R s t → Option.Rel R' (f s) (g t)) : Option.Rel R' (x.bind f) (y.bind g) := by
  cases h with
  | none => exact .none
  | some h => exact hfg _ _ h

theorem foldlM {f : σ → α → Option σ} {g : τ → β → Option τ} {φ : α → β}
    (hstep : ∀ s t a, R s t → Option.Rel R (f s a) (g t (φ a))) (l : List α) {s : σ} {t : τ} (h : R s t) :
    Option.Rel R (l.foldlM f s) ((l.map φ).foldlM g t) := by
  induction l generalizing s t with
  | nil => exact .some h
  | cons a l ih =>
    rw [List.map_cons, List.foldlM_cons, List.foldlM_cons]
    exact bind (hstep s t a h) fun s' t' h' => ih h'

theorem foldlM_map {f : σ → α → Option σ} {g : τ → β → Option τ} {φ : α → β} {ψ : τ → σ}
    (hstep : ∀ t a, f (ψ t) a = (g t (φ a)).map ψ) (l : List α) (t : τ) :
    l.foldlM f (ψ t) = ((l.map φ).foldlM g t).map ψ := by
  induction l generalizing t with
  | nil => rfl
  | cons a l ih =>
    rw [List.map_cons, List.foldlM_cons, List.foldlM_cons, hstep]
    cases g t (φ a) with
    | none => rfl
    | some t' => exact ih t'

end Lockstep
