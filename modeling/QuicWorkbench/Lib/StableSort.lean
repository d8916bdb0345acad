import Mathlib.Data.List.Sort

/-!
# Stable sorting by a key

A list sorted by a key is determined by its sublists of equal keys, and a stable sort leaves those as they are. So a stable
sort commutes with filters, and its result depends on nothing but the order within each key.
-/

namespace StableSort

variable {α : Type*} {key : α → Nat} {l l' : List α}

/-- Sorted by the key. -/
def Sorted (key : α → Nat) (l : List α) : Prop := l.Pairwise fun a b => key a ≤ key b

/-- The stable sort. -/
def sort (key : α → Nat) (l : List α) : List α := l.insertionSort fun a b => key a ≤ key b

theorem perm_sort (key : α → Nat) (l : List α) : (sort key l).Perm l :=
  List.perm_insertionSort _ l

theorem sorted_sort (key : α → Nat) (l : List α) : Sorted key (sort key l) := by
  have : Std.Total fun a b => key a ≤ key b := ⟨fun a b => Nat.le_total _ _⟩
  have : IsTrans α fun a b => key a ≤ key b := ⟨fun a b c => Nat.le_trans⟩
  exact List.pairwise_insertionSort _ l

/-- Equal keys stay in their order. -/
theorem filter_key_sort (key : α → Nat) (l : List α) (k : Nat) :
    (sort key l).filter (fun a => key a = k) = l.filter fun a => key a = k := by
  have hpairwise : (l.filter fun a => key a = k).Pairwise fun a b => key a ≤ key b := by
    refine List.pairwise_of_forall_mem_list fun a ha b hb => ?_
    have ha := (List.mem_filter.1 ha).2
    have hb := (List.mem_filter.1 hb).2
    simp only [decide_eq_true_eq] at ha hb
    omega
  have hsub : (l.filter fun a => key a = k).Sublist (sort key l) :=
    List.sublist_insertionSort hpairwise List.filter_sublist
  have hfilter := hsub.filter fun a => key a = k
  rw [List.filter_filter] at hfilter
  simp only [Bool.and_self] at hfilter
  exact (hfilter.eq_of_length ((perm_sort key l).filter _).length_eq.symm).symm

/-- The least key comes first. -/
theorem Sorted.head_le {a b : α} (h : Sorted key (a :: l)) (hb : b ∈ a :: l) : key a ≤ key b := by
  rcases List.mem_cons.1 hb with rfl | hb
  · exact Nat.le_refl _
  · exact List.rel_of_pairwise_cons h hb

/-- Lists sorted by a key that agree on the entries of each key are equal. -/
theorem Sorted.eq_of_filter (h : Sorted key l) (h' : Sorted key l')
    (heq : ∀ k, l.filter (fun a => key a = k) = l'.filter fun a => key a = k) : l = l' := by
  have hmem : ∀ a, a ∈ l ↔ a ∈ l' := by
    intro a
    have ha := congrArg (a ∈ ·) (heq (key a))
    simpa using ha
  induction l generalizing l' with
  | nil =>
    refine (List.eq_nil_iff_forall_not_mem.2 fun a ha => ?_).symm
    simpa using (hmem a).2 ha
  | cons a l ih =>
    cases l' with
    | nil => simpa using (hmem a).1 (List.mem_cons_self ..)
    | cons b l' =>
      have hkey : key a = key b := by
        have hle := h.head_le ((hmem b).2 (List.mem_cons_self ..))
        have hge := h'.head_le ((hmem a).1 (List.mem_cons_self ..))
        omega
      have hhead := heq (key a)
      rw [List.filter_cons_of_pos (by simp), List.filter_cons_of_pos (by simp [hkey])] at hhead
      obtain ⟨rfl, -⟩ := List.cons.inj hhead
      have hrest : ∀ k, l.filter (fun a => key a = k) = l'.filter fun a => key a = k := by
        intro k
        have hk := heq k
        simp only [List.filter_cons] at hk
        split_ifs at hk
        · exact (List.cons.inj hk).2
        · exact hk
      refine congrArg (a :: ·) (ih h.of_cons h'.of_cons hrest fun c => ?_)
      have hc := congrArg (c ∈ ·) (hrest (key c))
      simpa using hc

/-- The sort commutes with a filter. -/
theorem filter_sort (key : α → Nat) (p : α → Bool) (l : List α) : (sort key l).filter p = sort key (l.filter p) := by
  refine Sorted.eq_of_filter ((sorted_sort key l).filter p) (sorted_sort key _) fun k => ?_
  rw [filter_key_sort, List.filter_comm, filter_key_sort, List.filter_comm]

/-- The result depends on nothing but the order within each key. -/
theorem sort_congr (h : ∀ k, l.filter (fun a => key a = k) = l'.filter fun a => key a = k) :
    sort key l = sort key l' := by
  refine Sorted.eq_of_filter (sorted_sort key l) (sorted_sort key l') fun k => ?_
  rw [filter_key_sort, filter_key_sort, h]

/-- The entries up to a key are a prefix. -/
theorem Sorted.takeWhile_eq_filter (h : Sorted key l) (k : Nat) :
    l.takeWhile (fun a => key a ≤ k) = l.filter fun a => key a ≤ k := by
  induction l with
  | nil => rfl
  | cons a l ih =>
    by_cases ha : key a ≤ k
    · rw [List.takeWhile_cons_of_pos (by simpa using ha), List.filter_cons_of_pos (by simpa using ha), ih h.of_cons]
    · have hnil : l.filter (fun a => decide (key a ≤ k)) = [] := by
        refine List.filter_eq_nil_iff.2 fun b hb => ?_
        have hle := h.head_le (List.mem_cons_of_mem a hb)
        simp only [decide_eq_true_eq]
        omega
      rw [List.takeWhile_cons_of_neg (by simpa using ha), List.filter_cons_of_neg (by simpa using ha), hnil]

end StableSort
