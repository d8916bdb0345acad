import Mathlib.Data.List.Basic

/-!
# Computations that track errors and may stop

`Tracked ε φ α` collects errors `ε` on the way and ends with an `α` or stops for a reason `φ`. The
errors tracked before a stop are kept. Proofs make three judgements about such a computation: it ended
without tracking anything (`Clean`), it ended having tracked only errors that satisfy `P` (`Within`), and,
whether it ended or stopped, it tracked only errors that satisfy `P`, and what it ended with satisfies `Q`
(`Ensures`). Of two computations, `Agrees` says that they track the same and end alike, if the first one ends within `P`.
-/

/-- A computation that tracks errors `ε` and may stop for a reason `φ`. -/
structure Tracked (ε φ α : Type) where
  errors : List ε
  result : Except φ α

namespace Tracked

variable {ε φ α β γ : Type}

protected def pure (a : α) : Tracked ε φ α := ⟨[], .ok a⟩

protected def bind (x : Tracked ε φ α) (f : α → Tracked ε φ β) : Tracked ε φ β :=
  match x.result with
  | .ok a => ⟨x.errors ++ (f a).errors, (f a).result⟩
  | .error e => ⟨x.errors, .error e⟩

instance : Monad (Tracked ε φ) where
  pure := Tracked.pure
  bind := Tracked.bind

/-- Track an error and go on. -/
def track (e : ε) : Tracked ε φ Unit := ⟨[e], .ok ()⟩

/-- Track an error if the condition holds. -/
def trackIf (c : Bool) (e : ε) : Tracked ε φ Unit := ⟨if c then [e] else [], .ok ()⟩

/-- Stop. -/
def stop (e : φ) : Tracked ε φ α := ⟨[], .error e⟩

/-- The value of an option, stopping where there is none. -/
def ofOption (e : φ) : Option α → Tracked ε φ α
  | some a => .pure a
  | none => .stop e

variable {x : Tracked ε φ α} {f : α → Tracked ε φ β} {a : α} {b : β} {e : ε} {P : ε → Prop}

@[simp] theorem pure_eq (a : α) : (pure a : Tracked ε φ α) = ⟨[], .ok a⟩ := rfl

@[simp] theorem bind_mk_ok (es : List ε) (a : α) (f : α → Tracked ε φ β) :
    (⟨es, .ok a⟩ : Tracked ε φ α) >>= f = ⟨es ++ (f a).errors, (f a).result⟩ := rfl

@[simp] theorem bind_mk_error (es : List ε) (r : φ) (f : α → Tracked ε φ β) :
    (⟨es, .error r⟩ : Tracked ε φ α) >>= f = ⟨es, .error r⟩ := rfl

@[simp] theorem ofOption_some (r : φ) (a : α) : (ofOption r (some a) : Tracked ε φ α) = ⟨[], .ok a⟩ := rfl

@[simp] theorem ofOption_none (r : φ) : (ofOption r none : Tracked ε φ α) = ⟨[], .error r⟩ := rfl

@[simp] theorem pure_def (a : α) : (Tracked.pure a : Tracked ε φ α) = ⟨[], .ok a⟩ := rfl

@[simp] theorem stop_def (r : φ) : (stop r : Tracked ε φ α) = ⟨[], .error r⟩ := rfl

@[simp] theorem track_def (e : ε) : (track e : Tracked ε φ Unit) = ⟨[e], .ok ()⟩ := rfl

@[simp] theorem trackIf_def (c : Bool) (e : ε) :
    (trackIf c e : Tracked ε φ Unit) = ⟨if c then [e] else [], .ok ()⟩ := rfl

/-- The computation ends with `a`, having tracked only errors that satisfy `P`. -/
def Within (P : ε → Prop) (x : Tracked ε φ α) (a : α) : Prop :=
  x.result = .ok a ∧ ∀ e ∈ x.errors, P e

/-- The computation ends with `a` and tracks nothing. -/
def Clean (x : Tracked ε φ α) (a : α) : Prop := x.Within (fun _ => False) a

theorem within_bind_iff : (x >>= f).Within P b ↔ ∃ a, x.Within P a ∧ (f a).Within P b := by
  obtain ⟨es, r⟩ := x
  cases r with
  | error r => simp [Within]
  | ok a => simp [Within, or_imp, forall_and, and_assoc, and_left_comm]

theorem within_pure_iff {a' : α} : (pure a : Tracked ε φ α).Within P a' ↔ a = a' := by
  simp [Within]

theorem within_ofOption_iff {r : φ} {o : Option α} :
    (ofOption r o : Tracked ε φ α).Within P a ↔ o = some a := by
  cases o <;> simp [Within]

theorem within_trackIf_iff {c : Bool} {u : Unit} :
    (trackIf c e : Tracked ε φ Unit).Within P u ↔ (c = true → P e) := by
  cases c <;> simp [Within]

theorem within_track_iff {u : Unit} : (track e : Tracked ε φ Unit).Within P u ↔ P e := by
  simp [Within]

theorem not_within_stop {r : φ} : ¬ (stop r : Tracked ε φ α).Within P a := by
  simp [Within]

theorem Within.mono {Q : ε → Prop} (hPQ : ∀ e, P e → Q e) (h : x.Within P a) : x.Within Q a :=
  ⟨h.1, fun e he => hPQ e (h.2 e he)⟩

theorem Within.unique {Q : ε → Prop} {a' : α} (h : x.Within P a) (h' : x.Within Q a') : a = a' := by
  have := h.1.symm.trans h'.1
  simpa using this

/-- Feeding a list of inputs to a tracked step. -/
def fold (f : α → γ → Tracked ε φ α) (a : α) : List γ → Tracked ε φ α
  | [] => pure a
  | c :: cs => f a c >>= fun a' => fold f a' cs

variable {g : α → γ → Tracked ε φ α} {cs ds : List γ} {c : γ}

@[simp] theorem fold_nil : fold g a [] = pure a := rfl

theorem fold_cons : fold g a (c :: cs) = g a c >>= fun a' => fold g a' cs := rfl

theorem within_fold_append {a'' : α} :
    (fold g a (cs ++ ds)).Within P a'' ↔ ∃ a', (fold g a cs).Within P a' ∧ (fold g a' ds).Within P a'' := by
  induction cs generalizing a with
  | nil => simp [within_pure_iff, -pure_eq]
  | cons c cs ih =>
    rw [List.cons_append, fold_cons, fold_cons, within_bind_iff]
    simp only [within_bind_iff, ih]
    exact ⟨fun ⟨a₁, h₁, a₂, h₂, h₃⟩ => ⟨a₂, ⟨a₁, h₁, h₂⟩, h₃⟩,
      fun ⟨a₂, ⟨a₁, h₁, h₂⟩, h₃⟩ => ⟨a₁, h₁, a₂, h₂, h₃⟩⟩

theorem within_fold_singleton {a' : α} : (fold g a [c]).Within P a' ↔ (g a c).Within P a' := by
  rw [fold_cons, within_bind_iff]
  simp [within_pure_iff, -pure_eq]

theorem Within.fold_snoc {a' a'' : α} (h : (fold g a cs).Within P a') (hc : (g a' c).Within P a'') :
    (fold g a (cs ++ [c])).Within P a'' :=
  within_fold_append.2 ⟨a', h, within_fold_singleton.2 hc⟩

theorem mem_errors_bind (h : x.result = .ok a) : e ∈ (x >>= f).errors ↔ e ∈ x.errors ∨ e ∈ (f a).errors := by
  obtain ⟨es, r⟩ := x
  obtain rfl : r = .ok a := h
  simp

theorem exists_of_bind_ok {b : β} (h : (x >>= f).result = .ok b) : ∃ a, x.result = .ok a ∧ (f a).result = .ok b := by
  obtain ⟨es, r⟩ := x
  cases r with
  | error r => simp at h
  | ok a => exact ⟨a, rfl, by simpa using h⟩

/-- The last step of a fold tracks its errors on top of those before. -/
theorem mem_errors_fold_snoc {a' : α} (h : (fold g a cs).result = .ok a') :
    e ∈ (fold g a (cs ++ [c])).errors ↔ e ∈ (fold g a cs).errors ∨ e ∈ (g a' c).errors := by
  induction cs generalizing a with
  | nil =>
    obtain rfl : a = a' := by simpa using h
    rw [List.nil_append, fold_cons]
    generalize g a c = last
    obtain ⟨es, r⟩ := last
    cases r <;> simp
  | cons d cs ih =>
    rw [fold_cons] at h
    obtain ⟨a₁, hd, h⟩ := exists_of_bind_ok h
    rw [List.cons_append, fold_cons, fold_cons, mem_errors_bind hd, mem_errors_bind hd, ih h, or_assoc]

/-- Whether the computation ends or stops, it tracks only errors that satisfy `P`; if it ends, then with
something that satisfies `Q`. -/
structure Ensures (P : ε → Prop) (Q : α → Prop) (x : Tracked ε φ α) : Prop where
  errors : ∀ e ∈ x.errors, P e
  result : ∀ a, x.result = .ok a → Q a

variable {Q : α → Prop} {R : β → Prop}

theorem ensures_pure (h : Q a) : (pure a : Tracked ε φ α).Ensures P Q :=
  ⟨by simp, fun a' ha' => (Except.ok.inj ha') ▸ h⟩

theorem ensures_stop {r : φ} : (stop r : Tracked ε φ α).Ensures P Q := ⟨by simp, by simp⟩

theorem ensures_track (h : P e) : (track e : Tracked ε φ Unit).Ensures P fun _ => True :=
  ⟨by simpa using h, fun _ _ => trivial⟩

theorem ensures_trackIf {c : Bool} (h : c = true → P e) : (trackIf c e : Tracked ε φ Unit).Ensures P fun _ => True :=
  ⟨fun e' he' => by cases c <;> simp at h he'; exact he' ▸ h, fun _ _ => trivial⟩

theorem ensures_ofOption {r : φ} {o : Option α} : (ofOption r o : Tracked ε φ α).Ensures P fun a => o = some a := by
  cases o <;> exact ⟨by simp, by simp⟩

theorem Ensures.bind (h : x.Ensures P Q) (hf : ∀ a, Q a → (f a).Ensures P R) : (x >>= f).Ensures P R := by
  obtain ⟨es, r⟩ := x
  cases r with
  | error r => exact ⟨h.errors, by simp⟩
  | ok a =>
    have hfa := hf a (h.result a rfl)
    refine ⟨fun e he => ?_, hfa.result⟩
    rcases List.mem_append.1 he with he | he
    · exact h.errors e he
    · exact hfa.errors e he

theorem Ensures.mono {Q' : α → Prop} {P' : ε → Prop} (h : x.Ensures P Q) (hP : ∀ e, P e → P' e)
    (hQ : ∀ a, Q a → Q' a) : x.Ensures P' Q' :=
  ⟨fun e he => hP e (h.errors e he), fun a ha => hQ a (h.result a ha)⟩

/-- What every step ensures of the inputs so far, a fold ensures of all of them. -/
theorem Ensures.fold {I : List γ → α → Prop} (pre : List γ)
    (hstep : ∀ pre' c post a, pre ++ cs = pre' ++ c :: post → I pre' a → (g a c).Ensures P (I (pre' ++ [c])))
    (h : I pre a) : (Tracked.fold g a cs).Ensures P (I (pre ++ cs)) := by
  induction cs generalizing a pre with
  | nil => rw [fold_nil, List.append_nil]; exact ensures_pure h
  | cons c cs ih =>
    rw [fold_cons]
    refine (hstep pre c cs a rfl h).bind fun a' ha' => ?_
    have := ih (pre ++ [c]) (fun pre' d post b heq => hstep pre' d post b (by simpa using heq)) ha'
    rwa [List.append_assoc] at this

/-- If the computation stops, it stops in one of the ways `S`. -/
def StopsAs (S : φ → Prop) (x : Tracked ε φ α) : Prop := ∀ r, x.result = .error r → S r

variable {S : φ → Prop}

theorem stopsAs_pure : (pure a : Tracked ε φ α).StopsAs S := by simp [StopsAs]

theorem stopsAs_stop {r : φ} (h : S r) : (stop r : Tracked ε φ α).StopsAs S := by simpa [StopsAs] using h

theorem stopsAs_track : (track e : Tracked ε φ Unit).StopsAs S := by simp [StopsAs]

theorem stopsAs_trackIf {c : Bool} : (trackIf c e : Tracked ε φ Unit).StopsAs S := by simp [StopsAs]

theorem stopsAs_ofOption {r : φ} {o : Option α} (h : o = none → S r) : (ofOption r o : Tracked ε φ α).StopsAs S := by
  cases o with
  | none => simpa [StopsAs] using h rfl
  | some a => simp [StopsAs]

theorem StopsAs.bind (h : x.StopsAs S) (hf : ∀ a, x.result = .ok a → (f a).StopsAs S) : (x >>= f).StopsAs S := by
  obtain ⟨es, r⟩ := x
  cases r with
  | error r =>
    intro r' hr'
    exact h r' (congrArg Except.error (Except.error.inj hr'))
  | ok a => exact hf a rfl

/-- A fold stops as its steps do. -/
theorem StopsAs.fold (h : ∀ pre c a', pre ++ [c] <+: cs → (fold g a pre).result = .ok a' → (g a' c).StopsAs S) :
    (fold g a cs).StopsAs S := by
  induction cs generalizing a with
  | nil => exact stopsAs_pure
  | cons c cs ih =>
    rw [fold_cons]
    refine (h [] c a (by simp) rfl).bind fun a' ha' => ih fun pre d a'' hpre ha'' => ?_
    refine h (c :: pre) d a'' (by simpa using hpre) ?_
    have hc : (g a c).Within (fun _ => True) a' := ⟨ha', fun _ _ => trivial⟩
    have hpre : (Tracked.fold g a' pre).Within (fun _ => True) a'' := ⟨ha'', fun _ _ => trivial⟩
    exact (within_bind_iff.2 ⟨a', hc, hpre⟩ : (Tracked.fold g a (c :: pre)).Within (fun _ => True) a'').1

/-- If the first computation ends having tracked only errors that satisfy `P`, the second one tracks the same errors and
ends with something related. -/
def Agrees (P : ε → Prop) (T : α → β → Prop) (x : Tracked ε φ α) (y : Tracked ε φ β) : Prop :=
  ∀ a, x.Within P a → ∃ b, T a b ∧ y = ⟨x.errors, .ok b⟩

section
variable {δ : Type} {T : α → β → Prop} {U : γ → δ → Prop} {y : Tracked ε φ β}

theorem agrees_rfl : x.Agrees P Eq x := fun a ha => ⟨a, rfl, congrArg (Tracked.mk x.errors) ha.1⟩

theorem agrees_pure {b : β} (h : T a b) : (pure a : Tracked ε φ α).Agrees P T (pure b) := by
  intro a' ha'
  obtain rfl := within_pure_iff.1 ha'
  exact ⟨b, h, rfl⟩

theorem Agrees.bind {f : α → Tracked ε φ γ} {g : β → Tracked ε φ δ} (h : x.Agrees P T y)
    (hfg : ∀ a b, T a b → (f a).Agrees P U (g b)) : (x >>= f).Agrees P U (y >>= g) := by
  intro c hc
  obtain ⟨a, ha, hc⟩ := within_bind_iff.1 hc
  obtain ⟨b, hab, rfl⟩ := h a ha
  obtain ⟨d, hcd, hd⟩ := hfg a b hab c hc
  obtain ⟨es, r⟩ := x
  obtain rfl : r = .ok a := ha.1
  exact ⟨d, hcd, by rw [bind_mk_ok, bind_mk_ok, hd]⟩

/-- Computations that begin alike. -/
theorem agrees_bind {f : α → Tracked ε φ γ} {g : α → Tracked ε φ δ} (h : ∀ a, (f a).Agrees P U (g a)) :
    (x >>= f).Agrees P U (x >>= g) :=
  agrees_rfl.bind fun a _ hab => hab ▸ h a

theorem Agrees.fold {g' : β → γ → Tracked ε φ β} {b : β} (hstep : ∀ a b c, T a b → (g a c).Agrees P T (g' b c)) (h : T a b) :
    (fold g a cs).Agrees P T (Tracked.fold g' b cs) := by
  induction cs generalizing a b with
  | nil => exact agrees_pure h
  | cons c cs ih =>
    rw [fold_cons, fold_cons]
    exact (hstep a b c h).bind fun a' b' h' => ih h'

end

end Tracked
