import Mathlib.Data.Nat.ModEq
import Mathlib.Algebra.BigOperators.Group.List.Basic

/-!
# Big-endian words and their one's-complement sum

Bytes as big-endian numbers and as 16-bit words, and the checksum of the internet protocols: the one's complement of the
one's-complement sum of the words. The sum of words is their sum modulo 65535, and it is 0 for zeros only
(`onesComplementSum_eq_iff`).
-/

namespace BigEndian

/-- The number that the bytes are, most significant first. -/
def value (bytes : List UInt8) : Nat := bytes.foldl (fun n b => n * 256 + b.toNat) 0

/-- The 16-bit words of the bytes. A last byte without a second one is padded with a zero. -/
def words : List UInt8 → List Nat
  | a :: b :: rest => (a.toNat * 256 + b.toNat) :: words rest
  | [a] => [a.toNat * 256]
  | [] => []

theorem words_lt (bytes : List UInt8) : ∀ w ∈ words bytes, w ≤ 65535 := by
  induction bytes using words.induct with
  | case1 a b rest ih =>
    intro w hw
    rw [words, List.mem_cons] at hw
    rcases hw with rfl | hw
    · have ha := a.toNat_lt
      have hb := b.toNat_lt
      omega
    · exact ih w hw
  | case2 a =>
    have ha := a.toNat_lt
    simp [words]
    omega
  | case3 => simp [words]

theorem sum_words_zeros (n : Nat) : (words (List.replicate n 0)).sum = 0 := by
  induction n using Nat.twoStepInduction with
  | zero => rfl
  | one => rfl
  | more n ih _ => simp [List.replicate_succ, words, ih]

/-- Zeros behind the bytes do not change the sum. -/
theorem sum_words_append_zeros (bytes : List UInt8) (n : Nat) : (words (bytes ++ List.replicate n 0)).sum = (words bytes).sum := by
  induction bytes using words.induct with
  | case1 a b rest ih => simp [words, ih]
  | case2 a =>
    cases n with
    | zero => simp
    | succ n => simp [List.replicate_succ, words, sum_words_zeros]
  | case3 => simp [words, sum_words_zeros]

end BigEndian

namespace InternetChecksum

/-- Addition with end-around carry. -/
def add (a b : Nat) : Nat := if a + b ≤ 65535 then a + b else a + b - 65535

def onesComplementSum (words : List Nat) : Nat := words.foldl add 0

/-- The one's complement of the sum. -/
def checksum (words : List Nat) : Nat := 65535 - onesComplementSum words

theorem add_spec {a b : Nat} (ha : a ≤ 65535) (hb : b ≤ 65535) :
    add a b ≤ 65535 ∧ add a b ≡ a + b [MOD 65535] ∧ (add a b = 0 ↔ a + b = 0) := by
  unfold add
  split_ifs with h
  · exact ⟨h, rfl, Iff.rfl⟩
  · refine ⟨by omega, ?_, by omega⟩
    have hsum : a + b = a + b - 65535 + 65535 := by omega
    conv_rhs => rw [hsum]
    exact (Nat.add_modEq_right).symm

/-- The induction is on the words; the sum so far is the accumulator. -/
theorem foldl_add_spec {words : List Nat} (hwords : ∀ w ∈ words, w ≤ 65535) {a : Nat} (ha : a ≤ 65535) :
    words.foldl add a ≤ 65535 ∧ words.foldl add a ≡ a + words.sum [MOD 65535] ∧
      (words.foldl add a = 0 ↔ a + words.sum = 0) := by
  induction words generalizing a with
  | nil => exact ⟨ha, rfl, Iff.rfl⟩
  | cons w words ih =>
    obtain ⟨hle, hmod, hzero⟩ := add_spec ha (hwords w (List.mem_cons_self ..))
    obtain ⟨hle', hmod', hzero'⟩ := ih (fun v hv => hwords v (List.mem_cons_of_mem _ hv)) hle
    rw [List.foldl_cons, List.sum_cons]
    refine ⟨hle', ?_, by omega⟩
    calc words.foldl add (add a w) ≡ add a w + words.sum [MOD 65535] := hmod'
      _ ≡ a + w + words.sum [MOD 65535] := hmod.add_right _
      _ = a + (w + words.sum) := Nat.add_assoc ..

theorem onesComplementSum_le {words : List Nat} (h : ∀ w ∈ words, w ≤ 65535) : onesComplementSum words ≤ 65535 :=
  (foldl_add_spec h (Nat.zero_le _)).1

theorem onesComplementSum_modEq {words : List Nat} (h : ∀ w ∈ words, w ≤ 65535) :
    onesComplementSum words ≡ words.sum [MOD 65535] := by
  have hmod := (foldl_add_spec h (Nat.zero_le _)).2.1
  rwa [Nat.zero_add] at hmod

theorem onesComplementSum_eq_zero {words : List Nat} (h : ∀ w ∈ words, w ≤ 65535) :
    onesComplementSum words = 0 ↔ words.sum = 0 := by
  have hzero := (foldl_add_spec h (Nat.zero_le _)).2.2
  rwa [Nat.zero_add] at hzero

/-- Two lists of words that are not all zero have the same sum exactly if their sums are congruent. -/
theorem onesComplementSum_eq_iff {words words' : List Nat} (h : ∀ w ∈ words, w ≤ 65535) (h' : ∀ w ∈ words', w ≤ 65535)
    (hpos : 0 < words.sum) (hpos' : 0 < words'.sum) :
    onesComplementSum words = onesComplementSum words' ↔ words.sum ≡ words'.sum [MOD 65535] := by
  have hmod := onesComplementSum_modEq h
  have hmod' := onesComplementSum_modEq h'
  constructor
  · intro heq
    exact hmod.symm.trans (heq ▸ hmod')
  · intro hsum
    have hle := onesComplementSum_le h
    have hle' := onesComplementSum_le h'
    have hne : onesComplementSum words ≠ 0 := fun hzero => by
      have := (onesComplementSum_eq_zero h).1 hzero
      omega
    have hne' : onesComplementSum words' ≠ 0 := fun hzero => by
      have := (onesComplementSum_eq_zero h').1 hzero
      omega
    have hcongr : onesComplementSum words % 65535 = onesComplementSum words' % 65535 := (hmod.trans hsum).trans hmod'.symm
    omega

end InternetChecksum
