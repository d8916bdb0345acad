import Mathlib.Data.Option.Basic

/-!
# Computations that may stop with an error
-/

namespace Except
variable {ε ε' α β : Type}

theorem bind_eq_ok {x : Except ε α} {f : α → Except ε β} {b : β} : x >>= f = .ok b ↔ ∃ a, x = .ok a ∧ f a = .ok b := by
  cases x with
  | error e => simp [bind, Except.bind]
  | ok a => simp [bind, Except.bind]

theorem bind_eq_error {x : Except ε α} {f : α → Except ε β} {e : ε} :
    x >>= f = .error e ↔ x = .error e ∨ ∃ a, x = .ok a ∧ f a = .error e := by
  cases x with
  | error e' => simp [bind, Except.bind]
  | ok a => simp [bind, Except.bind]

theorem pure_eq_ok {a b : α} : (pure a : Except ε α) = .ok b ↔ a = b := by
  simp [pure, Except.pure]

theorem mapError_eq_ok {x : Except ε α} {f : ε → ε'} {a : α} : x.mapError f = .ok a ↔ x = .ok a := by
  cases x <;> simp [Except.mapError]

theorem mapError_eq_error {x : Except ε α} {f : ε → ε'} {e' : ε'} :
    x.mapError f = .error e' ↔ ∃ e, x = .error e ∧ f e = e' := by
  cases x <;> simp [Except.mapError]

theorem elim_eq_ok {x : Option α} {e : ε} {a : α} : x.elim (.error e) .ok = Except.ok a ↔ x = some a := by
  cases x <;> simp

theorem isOk_iff {x : Except ε α} : x.isOk ↔ ∃ a, x = .ok a := by
  cases x <;> simp [isOk, Except.toBool]

/-- A loop that may fail: what each iteration establishes of the elements so far, the loop establishes of all of them. -/
theorem foldlM_ok_induction {I : List α → β → Prop} {f : β → α → Except ε β} (as : List α)
    (hstep : ∀ pre, ∀ a ∈ as, ∀ b b', I pre b → f b a = .ok b' → I (pre ++ [a]) b') {pre : List α} {b b' : β}
    (h : I pre b) (hok : as.foldlM f b = .ok b') : I (pre ++ as) b' := by
  induction as generalizing pre b with
  | nil =>
    obtain rfl := pure_eq_ok.1 hok
    simpa using h
  | cons a as ih =>
    rw [List.foldlM_cons, bind_eq_ok] at hok
    obtain ⟨b₁, hf, hok⟩ := hok
    have hrest := ih (fun pre a ha => hstep pre a (List.mem_cons_of_mem _ ha))
      (hstep pre a (List.mem_cons_self ..) b b₁ h hf) hok
    rwa [List.append_assoc] at hrest

/-- A conversion of a list fails with the error of one of its elements. -/
theorem exists_of_mapM_eq_error {f : α → Except ε β} {as : List α} {e : ε} (h : as.mapM f = .error e) :
    ∃ a ∈ as, f a = .error e := by
  induction as with
  | nil => cases h
  | cons a as ih =>
    rw [List.mapM_cons] at h
    rcases bind_eq_error.1 h with ha | ⟨b, -, h⟩
    · exact ⟨a, List.mem_cons_self .., ha⟩
    · rcases bind_eq_error.1 h with has | ⟨bs, -, h⟩
      · obtain ⟨a', ha', he⟩ := ih has
        exact ⟨a', List.mem_cons_of_mem _ ha', he⟩
      · cases h

/-- A value that is present is converted, and one that is absent stays absent. -/
theorem mapM_eq_ok {f : α → Except ε β} {x : Option α} {y : Option β} :
    x.mapM f = .ok y ↔ (∀ a ∈ x, ∃ b ∈ y, f a = .ok b) ∧ (x = none → y = none) := by
  cases x with
  | none => simp [pure, Except.pure, eq_comm]
  | some a =>
    cases hf : f a with
    | error e => simp [hf, Functor.map, Except.map]
    | ok b => simp [hf, Functor.map, Except.map, eq_comm]

theorem exists_mapM_eq_ok {f : α → Except ε β} {x : Option α} :
    (∃ y, x.mapM f = .ok y) ↔ ∀ a ∈ x, ∃ b, f a = .ok b := by
  cases x with
  | none => simp [pure, Except.pure]
  | some a =>
    cases hf : f a with
    | error e => simp [hf, Functor.map, Except.map]
    | ok b => simp [hf, Functor.map, Except.map]

end Except
