import Mathlib.Data.List.AList
import Mathlib.Data.List.Induction
import Mathlib.Data.Set.Card
import Mathlib.Algebra.BigOperators.Group.List.Basic
import Mathlib.Algebra.Order.BigOperators.Group.List
import Mathlib.Tactic.Ring

/-!
# Finite maps filled from lists, and sums over them

`sumOf f m` adds `f` up over the values of `m`. What an insertion or a removal makes of a sum is stated without
subtraction, so that `omega` can use it.
-/

namespace AList

variable {K V : Type*}

/-- The sum of `f` over the values of the map. -/
def sumOf (f : V → ℕ) (m : AList fun _ : K => V) : ℕ := (m.entries.map fun e => f e.2).sum

variable {f : V → ℕ} {m : AList fun _ : K => V} {k : K} {v : V}

@[simp] theorem sumOf_empty : sumOf f (∅ : AList fun _ : K => V) = 0 := rfl

theorem sumOf_one (m : AList fun _ : K => V) : sumOf (fun _ => 1) m = m.entries.length := by
  simp [sumOf]

theorem sumOf_add (f g : V → ℕ) (m : AList fun _ : K => V) : sumOf (fun v => f v + g v) m = sumOf f m + sumOf g m := by
  simp [sumOf, List.sum_map_add]

theorem sumOf_mono {f g : V → ℕ} (h : ∀ v, f v ≤ g v) (m : AList fun _ : K => V) : sumOf f m ≤ sumOf g m :=
  List.sum_le_sum fun e _ => h e.2

variable [DecidableEq K]

theorem sumOf_insert_of_none (v : V) (h : m.lookup k = none) : sumOf f (m.insert k v) = sumOf f m + f v := by
  rw [sumOf, entries_insert_of_notMem (lookup_eq_none.1 h), List.map_cons, List.sum_cons, Nat.add_comm]
  rfl

theorem sumOf_erase (h : m.lookup k = some v) : sumOf f (m.erase k) + f v = sumOf f m := by
  have hmem : k ∈ m.entries.keys := lookup_isSome.1 (by simp [h])
  obtain ⟨w, before, after, hnot, hsplit, herase⟩ := List.exists_of_kerase hmem
  have hw : w = v := by
    have hw : w ∈ m.lookup k := mem_lookup_iff.2 (by rw [hsplit]; simp)
    rw [h] at hw
    exact (Option.some.inj hw).symm
  have hentries : (m.erase k).entries = before ++ after := herase
  rw [sumOf, sumOf, hentries, hsplit, hw]
  simp only [List.map_append, List.map_cons, List.sum_append, List.sum_cons]
  omega

theorem sumOf_insert_of_some (v' : V) (h : m.lookup k = some v) : sumOf f (m.insert k v') + f v = sumOf f m + f v' := by
  have hinsert : sumOf f (m.insert k v') = sumOf f (m.erase k) + f v' := by
    rw [sumOf, entries_insert, List.map_cons, List.sum_cons, Nat.add_comm]
    rfl
  rw [hinsert, ← sumOf_erase h]
  omega

theorem sumOf_insert_le (k : K) (v' : V) : sumOf f (m.insert k v') ≤ sumOf f m + f v' := by
  cases h : m.lookup k with
  | none => rw [sumOf_insert_of_none v' h]
  | some v =>
    have hsum := sumOf_insert_of_some (f := f) v' h
    omega

theorem le_sumOf (h : m.lookup k = some v) : f v ≤ sumOf f m := by
  rw [← sumOf_erase h]
  exact Nat.le_add_left ..

/-- A key that is not there counts as the default value, of which `f` is zero. -/
theorem sumOf_insert_getD {d : V} (hd : f d = 0) (k : K) (v' : V) :
    sumOf f (m.insert k v') + f ((m.lookup k).getD d) = sumOf f m + f v' := by
  cases h : m.lookup k with
  | none => rw [Option.getD_none, hd, sumOf_insert_of_none v' h, Nat.add_zero]
  | some v => rw [Option.getD_some, sumOf_insert_of_some v' h]

theorem sumOf_eq_keys : sumOf f m = (m.keys.map fun k => ((m.lookup k).map f).getD 0).sum := by
  rw [sumOf, keys, List.keys, List.map_map]
  refine congrArg List.sum (List.map_congr_left fun e he => ?_)
  simp only [Function.comp, Option.mem_def.1 (mem_lookup_iff.2 he), Option.map_some, Option.getD_some]

/-- The sum depends only on what `f` makes of the values. -/
theorem sumOf_congr {W : Type*} {g : W → ℕ} {m' : AList fun _ : K => W}
    (h : ∀ k, (m.lookup k).map f = (m'.lookup k).map g) : sumOf f m = sumOf g m' := by
  have hkeys : m.keys.Perm m'.keys := by
    refine (List.perm_ext_iff_of_nodup m.keys_nodup m'.keys_nodup).2 fun k => ?_
    rw [← mem_keys, ← mem_keys, ← lookup_isSome, ← lookup_isSome]
    have hk := congrArg Option.isSome (h k)
    rw [Option.isSome_map, Option.isSome_map] at hk
    rw [hk]
  rw [sumOf_eq_keys, sumOf_eq_keys, (hkeys.map _).sum_eq]
  simp only [h]

/-- The keys of a map are as many as its entries. -/
theorem ncard_keys (m : AList fun _ : K => V) : Set.ncard {k | (m.lookup k).isSome} = m.entries.length := by
  have hkeys : {k | (m.lookup k).isSome} = (m.keys.toFinset : Set K) := by
    ext k
    simp [lookup_isSome, mem_keys]
  rw [hkeys, Set.ncard_coe_finset, List.toFinset_card_of_nodup m.keys_nodup, keys, List.keys, List.length_map]

/-- In a map filled from a list, the last element with a key counts. -/
theorem lookup_foldl_insert {A : Type*} (key : A → K) (value : A → V) (as : List A) (m : AList fun _ : K => V) (k : K) :
    (as.foldl (fun m a => m.insert (key a) (value a)) m).lookup k =
      ((as.reverse.find? fun a => key a = k).map value).or (m.lookup k) := by
  induction as using List.reverseRecOn with
  | nil => rfl
  | append_singleton as a ih =>
    rw [List.foldl_append, List.foldl_cons, List.foldl_nil, List.reverse_append, List.reverse_singleton,
      List.singleton_append, List.find?_cons]
    by_cases hkey : key a = k
    · subst hkey
      simp
    · rw [lookup_insert_ne (Ne.symm hkey), ih]
      simp [hkey]

/-- The map with all values changed. -/
theorem lookup_foldl_entries {W : Type*} (f : V → W) (m : AList fun _ : K => V) (k : K) :
    (m.entries.foldl (fun (m' : AList fun _ : K => W) e => m'.insert e.1 (f e.2)) ∅).lookup k = (m.lookup k).map f := by
  refine (lookup_foldl_insert (fun e : (_ : K) × V => e.1) (fun e => f e.2) m.entries ∅ k).trans ?_
  rw [lookup_empty, Option.or_none]
  cases hfind : m.entries.reverse.find? fun e => e.1 = k with
  | none =>
    have hnot : m.lookup k = none := by
      refine lookup_eq_none.2 fun hmem => ?_
      obtain ⟨e, he, hek⟩ := List.mem_map.1 hmem
      exact absurd (List.find?_eq_none.1 hfind e (List.mem_reverse.2 he)) (by simpa using hek)
    rw [hnot]
    rfl
  | some e =>
    have hek : e.1 = k := by simpa using List.find?_some hfind
    have hmem : e ∈ m.entries := List.mem_reverse.1 (List.mem_of_find?_eq_some hfind)
    have hlookup : m.lookup k = some e.2 := by
      subst hek
      exact mem_lookup_iff.2 hmem
    rw [hlookup]
    rfl

end AList
