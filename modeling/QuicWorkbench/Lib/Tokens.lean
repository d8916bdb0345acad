import Mathlib.Logic.Basic
import Mathlib.Tactic.Tauto

/-!
# Tokens at places

`holds t l` says that the token `t` is at the place `l`. A move creates a token, removes one, takes one from
a place to another, or leaves all where they are. Tokens that are at one place at most stay so, as long as
only tokens are created that are nowhere (`OnePlace.move`).
-/

/-- A token is at one place at most. -/
def OnePlace {T L : Type*} (holds : T → L → Prop) : Prop := ∀ t l l', holds t l → holds t l' → l = l'

/-- The tokens after a move; the token that it creates, if any. -/
inductive TokenMove {T L : Type*} (holds holds' : T → L → Prop) : Option T → Prop
  | stay (h : ∀ t l, holds' t l ↔ holds t l) : TokenMove holds holds' none
  | create (t : T) (l : L) (h : ∀ u m, holds' u m ↔ holds u m ∨ (u = t ∧ m = l)) : TokenMove holds holds' (some t)
  | remove (t : T) (l : L) (ht : holds t l) (h : ∀ u m, holds' u m ↔ holds u m ∧ ¬(u = t ∧ m = l)) :
      TokenMove holds holds' none
  | take (t : T) (l l' : L) (ht : holds t l)
      (h : ∀ u m, holds' u m ↔ (holds u m ∧ ¬(u = t ∧ m = l)) ∨ (u = t ∧ m = l')) : TokenMove holds holds' none

section
variable {T L : Type*} {holds holds' : T → L → Prop} {created : Option T} {t : T} {l : L}

theorem OnePlace.move (h : OnePlace holds) (hmove : TokenMove holds holds' created)
    (hnew : ∀ t, created = some t → ∀ l, ¬ holds t l) : OnePlace holds' := by
  intro u m m' hm hm'
  cases hmove with
  | stay heq =>
    rw [heq] at hm hm'
    exact h u m m' hm hm'
  | create t l heq =>
    rw [heq] at hm hm'
    rcases hm with hm | ⟨rfl, rfl⟩ <;> rcases hm' with hm' | ⟨hu, rfl⟩
    · exact h u m m' hm hm'
    · exact absurd (hu ▸ hm) (hnew t rfl m)
    · exact absurd hm' (hnew u rfl m')
    · rfl
  | remove t l _ heq =>
    rw [heq] at hm hm'
    exact h u m m' hm.1 hm'.1
  | take t l l' ht heq =>
    rw [heq] at hm hm'
    rcases hm with ⟨hm, hne⟩ | ⟨rfl, rfl⟩ <;> rcases hm' with ⟨hm', hne'⟩ | ⟨hu, rfl⟩
    · exact h u m m' hm hm'
    · subst hu
      exact absurd ⟨rfl, h _ _ _ hm ht⟩ hne
    · exact absurd ⟨rfl, h _ _ _ hm' ht⟩ hne'
    · rfl

/-- A token that is somewhere after the move was somewhere before it, or is the one created. -/
theorem TokenMove.origin (hmove : TokenMove holds holds' created) (h : holds' t l) :
    (∃ l₀, holds t l₀) ∨ created = some t := by
  cases hmove with
  | stay heq => exact .inl ⟨l, (heq t l).1 h⟩
  | create t' l' heq =>
    rcases (heq t l).1 h with h | ⟨rfl, -⟩
    · exact .inl ⟨l, h⟩
    · exact .inr rfl
  | remove t' l' _ heq => exact .inl ⟨l, ((heq t l).1 h).1⟩
  | take t' l₁ l₂ ht heq =>
    rcases (heq t l).1 h with ⟨h, -⟩ | ⟨rfl, -⟩
    · exact .inl ⟨l, h⟩
    · exact .inl ⟨l₁, ht⟩

/-- The token created is somewhere after the move. -/
theorem TokenMove.exists_of_some (hmove : TokenMove holds holds' (some t)) : ∃ l, holds' t l := by
  cases hmove with
  | create t l heq => exact ⟨l, (heq t l).2 (.inr ⟨rfl, rfl⟩)⟩

end
