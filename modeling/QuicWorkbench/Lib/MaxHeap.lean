import Mathlib.Data.List.Basic
import Mathlib.Data.List.Perm.Basic
import Mathlib.Order.Compare

/-!
# Max-heaps by their documented behaviour

A heap is the list of its elements. `popMax` takes out a greatest element under `cmp`. Which of
several equal elements comes first is not promised by a heap: `push` puts the new element at any
`slot` of the list, and among equal elements `popMax` takes the first, so every order in which equal
elements can leave is the order for some choice of slots.
-/

namespace MaxHeap

variable {α : Type*}

/-- Push `x`, at `slot` among the elements equal to it. -/
def push (slot : Nat) (x : α) (q : List α) : List α :=
  q.take slot ++ x :: q.drop slot

/-- A greatest element under `cmp`, and the rest of the heap. -/
def popMax (cmp : α → α → Ordering) : List α → Option (α × List α)
  | [] => none
  | x :: xs =>
    match popMax cmp xs with
    | none => some (x, xs)
    | some (y, rest) => if cmp x y = .lt then some (y, x :: rest) else some (x, xs)

/-- The element that `popMax` takes out. -/
def peek (cmp : α → α → Ordering) (q : List α) : Option α :=
  (popMax cmp q).map Prod.fst

theorem push_perm (slot : Nat) (x : α) (q : List α) : (push slot x q).Perm (x :: q) := by
  unfold push
  refine List.perm_middle.trans (List.Perm.cons x ?_)
  rw [List.take_append_drop]

theorem mem_push {slot : Nat} {x y : α} {q : List α} : y ∈ push slot x q ↔ y = x ∨ y ∈ q := by
  rw [(push_perm slot x q).mem_iff, List.mem_cons]

theorem length_push (slot : Nat) (x : α) (q : List α) : (push slot x q).length = q.length + 1 :=
  (push_perm slot x q).length_eq

variable {cmp : α → α → Ordering} {q rest : List α} {x y : α}

theorem popMax_eq_none : popMax cmp q = none ↔ q = [] := by
  cases q with
  | nil => simp [popMax]
  | cons x xs =>
    simp only [popMax, reduceCtorEq, iff_false]
    split
    · simp
    · split <;> simp

theorem popMax_perm (h : popMax cmp q = some (x, rest)) : q.Perm (x :: rest) := by
  induction q generalizing x rest with
  | nil => simp [popMax] at h
  | cons a q ih =>
    simp only [popMax] at h
    split at h
    · obtain ⟨rfl, rfl⟩ := by simpa using h
      rfl
    · rename_i y rest' hy
      split at h
      · obtain ⟨rfl, rfl⟩ := by simpa using h
        exact ((ih hy).cons a).trans (List.Perm.swap y a rest')
      · obtain ⟨rfl, rfl⟩ := by simpa using h
        rfl

theorem mem_of_popMax (h : popMax cmp q = some (x, rest)) : x ∈ q :=
  (popMax_perm h).mem_iff.2 (List.mem_cons_self ..)

theorem mem_of_mem_popMax (h : popMax cmp q = some (x, rest)) (hy : y ∈ rest) : y ∈ q :=
  (popMax_perm h).mem_iff.2 (List.mem_cons_of_mem _ hy)

theorem length_popMax (h : popMax cmp q = some (x, rest)) : q.length = rest.length + 1 :=
  (popMax_perm h).length_eq

/-- No element is greater than the one popped. -/
theorem le_popMax [Std.TransCmp cmp] (h : popMax cmp q = some (x, rest)) (hy : y ∈ q) :
    (cmp y x).isLE := by
  induction q generalizing x rest with
  | nil => simp at hy
  | cons a q ih =>
    simp only [popMax] at h
    split at h
    · rename_i hnone
      obtain ⟨rfl, rfl⟩ := by simpa using h
      rw [popMax_eq_none.1 hnone, List.mem_singleton] at hy
      exact hy ▸ Std.ReflCmp.isLE_rfl
    · rename_i m rest' hm
      split at h
      · rename_i hlt
        obtain ⟨rfl, rfl⟩ := by simpa using h
        rcases List.mem_cons.1 hy with rfl | hy
        · rw [hlt]; rfl
        · exact ih hm hy
      · rename_i hlt
        obtain ⟨rfl, rfl⟩ := by simpa using h
        rcases List.mem_cons.1 hy with rfl | hy
        · exact Std.ReflCmp.isLE_rfl
        · have hge : (cmp a m).isGE := by
            cases hc : cmp a m <;> simp_all
          exact Std.TransCmp.isLE_trans (ih hm hy) (Std.OrientedCmp.isGE_iff_isLE.1 hge)

end MaxHeap
