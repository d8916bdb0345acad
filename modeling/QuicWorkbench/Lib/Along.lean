import Mathlib.Data.List.Induction

/-!
# What holds along a list

`Along P l` says that every element of a history `l` is related by `P` to the elements before it. It is
checked where an element is appended (`along_snoc`), and holds of every prefix. `foldAlong` folds a history with a
function that sees the elements before each, and `mapAlong` maps it.
-/

/-- Every element is related to the elements before it. -/
def Along {α : Type*} (P : List α → α → Prop) (l : List α) : Prop := ∀ n a, l[n]? = some a → P (l.take n) a

section
variable {α : Type*} {P Q : List α → α → Prop} {l pre post : List α} {a : α}

theorem along_nil : Along P [] := by
  intro n a h
  simp at h

theorem along_snoc : Along P (l ++ [a]) ↔ Along P l ∧ P l a := by
  constructor
  · intro h
    refine ⟨fun n b hn => ?_, ?_⟩
    · obtain ⟨hlt, -⟩ := List.getElem?_eq_some_iff.1 hn
      have := h n b (by rw [List.getElem?_append_left hlt]; exact hn)
      rwa [List.take_append_of_le_length (Nat.le_of_lt hlt)] at this
    · have := h l.length a (by rw [List.getElem?_concat_length])
      rwa [List.take_left] at this
  · rintro ⟨hl, ha⟩ n b hn
    rcases Nat.lt_trichotomy n l.length with hlt | rfl | hgt
    · rw [List.getElem?_append_left hlt] at hn
      rw [List.take_append_of_le_length (Nat.le_of_lt hlt)]
      exact hl n b hn
    · rw [List.getElem?_concat_length, Option.some.injEq] at hn
      rw [List.take_left, ← hn]
      exact ha
    · rw [List.getElem?_eq_none (by simp; omega)] at hn
      simp at hn

theorem Along.at (h : Along P (pre ++ a :: post)) : P pre a := by
  have := h pre.length a (by simp)
  rwa [List.take_left] at this

theorem Along.left (h : Along P (pre ++ post)) : Along P pre := by
  induction post using List.reverseRecOn with
  | nil => rwa [List.append_nil] at h
  | append_singleton post a ih =>
    rw [← List.append_assoc, along_snoc] at h
    exact ih h.1

/-- It is enough to look at the places where the list can be split. -/
theorem along_iff_forall_split : Along P l ↔ ∀ pre a, pre ++ [a] <+: l → P pre a := by
  constructor
  · rintro h pre a ⟨post, rfl⟩
    exact (along_snoc.1 h.left).2
  · intro h n a hn
    obtain ⟨hlt, rfl⟩ := List.getElem?_eq_some_iff.1 hn
    refine h _ _ ?_
    rw [List.take_append_getElem hlt]
    exact List.take_prefix _ _

theorem Along.mono (hPQ : ∀ pre a, P pre a → Q pre a) (h : Along P l) : Along Q l := fun n a hn => hPQ _ a (h n a hn)

end

section
variable {α β : Type*} {f : List α → β → α → β} {b : β} {l : List α} {a : α}

/-- Folding a history with a function that sees the elements before each. -/
def foldAlong (f : List α → β → α → β) (b : β) (l : List α) : β :=
  (l.foldl (fun x a => (x.1 ++ [a], f x.1 x.2 a)) (([] : List α), b)).2

@[simp] theorem foldAlong_nil : foldAlong f b [] = b := rfl

theorem foldAlong_snoc : foldAlong f b (l ++ [a]) = f l (foldAlong f b l) a := by
  have hfst : ∀ l : List α, (l.foldl (fun x a => (x.1 ++ [a], f x.1 x.2 a)) (([] : List α), b)).1 = l := by
    intro l
    induction l using List.reverseRecOn with
    | nil => rfl
    | append_singleton l a ih => rw [List.foldl_append, List.foldl_cons, List.foldl_nil, ih]
  rw [foldAlong, List.foldl_append, List.foldl_cons, List.foldl_nil, hfst, foldAlong]

end

section
variable {α β : Type*} {f : List α → α → β} {l : List α} {a : α}

/-- The values of a function that sees the elements before each. -/
def mapAlong (f : List α → α → β) (l : List α) : List β := foldAlong (fun pre values a => values ++ [f pre a]) [] l

@[simp] theorem mapAlong_nil : mapAlong f [] = [] := rfl

theorem mapAlong_snoc : mapAlong f (l ++ [a]) = mapAlong f l ++ [f l a] := foldAlong_snoc

end
