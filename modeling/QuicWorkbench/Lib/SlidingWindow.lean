import QuicWorkbench.Lib.Along
import Mathlib.Algebra.BigOperators.Group.List.Basic
import Mathlib.Algebra.Ring.Nat

/-!
# Sliding windows with a running total

A window is a queue of the elements that came last, with the total of their weights and the peak of a rate that is computed
from the total. When an element comes, the elements that are too old for it are removed from the front, and their weights from
the total. If the elements come in order, none of the subtractions underflows, and the window is what a recomputation from
scratch gives (`foldlM_push`).
-/

namespace SlidingWindow

section
variable {α : Type*} {weight : α → ℕ} {old : α → Bool}

/-- Remove elements from the front while they are old. `none` is an underflow of the total. -/
def evict (weight : α → ℕ) (old : α → Bool) : List α → ℕ → Option (List α × ℕ)
  | [], total => some ([], total)
  | x :: elements, total =>
    if old x then (if weight x ≤ total then evict weight old elements (total - weight x) else none)
    else some (x :: elements, total)

/-- A total that is the sum stays the sum. -/
theorem evict_eq (elements : List α) : evict weight old elements (elements.map weight).sum =
    some (elements.dropWhile old, ((elements.dropWhile old).map weight).sum) := by
  induction elements with
  | nil => rfl
  | cons x elements ih =>
    rw [evict]
    by_cases hold : old x
    · rw [if_pos hold, List.dropWhile_cons_of_pos hold, List.map_cons, List.sum_cons, if_pos (Nat.le_add_right ..),
        Nat.add_sub_cancel_left, ih]
    · rw [if_neg hold, List.dropWhile_cons_of_neg hold]

/-- If the old elements are in front, removing them from the front removes them all. -/
theorem dropWhile_eq_filter {l : List α} (h : l.Pairwise fun x y => old y → old x) :
    l.dropWhile old = l.filter fun x => !old x := by
  induction l with
  | nil => rfl
  | cons x l ih =>
    obtain ⟨hx, hl⟩ := List.pairwise_cons.1 h
    by_cases hold : old x
    · rw [List.dropWhile_cons_of_pos hold, List.filter_cons_of_neg (by simpa using hold), ih hl]
    · have hall : l.filter (fun x => !old x) = l := by
        refine List.filter_eq_self.2 fun y hy => ?_
        rw [Bool.not_eq_true', Bool.eq_false_iff]
        exact fun hy' => hold (hx y hy hy')
      rw [List.dropWhile_cons_of_neg hold, List.filter_cons_of_pos (by simpa using hold), hall]

end

variable {α : Type*}

/-- `Old x y` says that `x` is too old for the window when `y` comes: then so is everything before `x`, and `x` stays too
old. -/
structure Ages (Before Old : α → α → Prop) : Prop where
  not_self : ∀ x, ¬ Old x x
  before : ∀ {x y z}, Before x y → Old y z → Old x z
  later : ∀ {x y z}, Old x y → Before y z → Old x z

/-- Elements with a time, and a window of a fixed width. -/
theorem ages_of_time (time : α → ℕ) (width : ℕ) :
    Ages (fun x y => time x ≤ time y) fun x y => time x + width < time y := by
  refine ⟨fun x => ?_, fun hxy hyz => ?_, fun hxy hyz => ?_⟩
  · omega
  · omega
  · omega

structure Window (α : Type*) where
  elements : List α := []
  total : ℕ := 0
  peak : ℕ := 0

section
variable (Old : α → α → Prop) [DecidableRel Old] (weight : α → ℕ) (rate : ℕ → ℕ)

/-- The window after `x`; its rate is then `rate` of its total. -/
def push (w : Window α) (x : α) : Option (Window α) :=
  (evict weight (fun y => Old y x) w.elements w.total).map fun (elements, total) =>
    { elements := elements ++ [x]
      total := total + weight x
      peak := max w.peak (rate (total + weight x)) }

/-- The elements that are not too old when `x` comes after the others, recomputed from scratch. -/
def held (before : List α) (x : α) : List α := (before ++ [x]).filter fun y => ¬ Old y x

/-- The rate when `x` comes after the others, recomputed from scratch. -/
def rateAt (before : List α) (x : α) : ℕ := rate ((held Old before x).map weight).sum

/-- The elements that are held after the last one. -/
def current (xs : List α) : List α := foldAlong (fun before _ x => held Old before x) [] xs

end

section
variable {Before Old : α → α → Prop} [DecidableRel Old] {weight : α → ℕ} {rate : ℕ → ℕ} {xs : List α} {x : α}

theorem held_eq (hages : Ages Before Old) : held Old xs x = (xs.filter fun y => ¬ Old y x) ++ [x] := by
  rw [held, List.filter_append, List.filter_singleton]
  simp [hages.not_self]

theorem current_snoc : current Old (xs ++ [x]) = held Old xs x := foldAlong_snoc

theorem current_sublist : (current Old xs).Sublist xs := by
  induction xs using List.reverseRecOn with
  | nil => exact .slnil
  | append_singleton xs x _ =>
    rw [current_snoc]
    exact List.filter_sublist

/-- Nothing has been removed that would be held later. -/
theorem filter_current (hages : Ages Before Old) (hsorted : (xs ++ [x]).Pairwise Before) :
    (current Old xs).filter (fun y => ¬ Old y x) = xs.filter fun y => ¬ Old y x := by
  induction xs using List.reverseRecOn with
  | nil => rfl
  | append_singleton xs z _ =>
    rw [current_snoc, held, List.filter_filter]
    refine List.filter_congr fun y _ => ?_
    have hzx : Before z x := (List.pairwise_append.1 hsorted).2.2 z (by simp) x (List.mem_singleton_self x)
    by_cases hy : Old y x
    · simp [hy]
    · have hyz : ¬ Old y z := fun h => hy (hages.later h hzx)
      simp [hy, hyz]

theorem push_eq (hages : Ages Before Old) (hsorted : (xs ++ [x]).Pairwise Before) {w : Window α}
    (helements : w.elements = current Old xs) (htotal : w.total = (w.elements.map weight).sum) :
    push Old weight rate w x = some
      { elements := held Old xs x
        total := ((held Old xs x).map weight).sum
        peak := max w.peak (rateAt Old weight rate xs x) } := by
  have hpairwise : (current Old xs).Pairwise fun y z => decide (Old z x) → decide (Old y x) := by
    refine ((List.pairwise_append.1 hsorted).1.sublist current_sublist).imp fun hyz hold => ?_
    rw [decide_eq_true_iff] at hold ⊢
    exact hages.before hyz hold
  have hdrop : (current Old xs).dropWhile (fun y => decide (Old y x)) ++ [x] = held Old xs x := by
    rw [dropWhile_eq_filter hpairwise, held_eq hages, ← filter_current hages hsorted]
    simp
  rw [push, htotal, helements, evict_eq, Option.map_some, ← hdrop]
  simp [rateAt, ← hdrop]

/-- Elements that come in order never make the total underflow, and give the window that is recomputed from scratch. -/
theorem foldlM_push (weight : α → ℕ) (rate : ℕ → ℕ) (hages : Ages Before Old) (hsorted : xs.Pairwise Before) :
    xs.foldlM (push Old weight rate) {} = some
      { elements := current Old xs
        total := ((current Old xs).map weight).sum
        peak := (mapAlong (rateAt Old weight rate) xs).foldl max 0 } := by
  induction xs using List.reverseRecOn with
  | nil => rfl
  | append_singleton xs x ih =>
    rw [List.foldlM_append, ih (List.pairwise_append.1 hsorted).1]
    simp only [Option.bind_eq_bind, Option.bind_some, List.foldlM_cons, List.foldlM_nil]
    rw [push_eq hages hsorted rfl rfl, current_snoc, mapAlong_snoc, List.foldl_append]
    rfl

end

end SlidingWindow
