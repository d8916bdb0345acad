import Mathlib.Tactic.Ring

/-!
# Words with a common prefix

The words that have their first bits in common with a given one are an interval: from the word with the other bits cleared
to the word with the other bits set.
-/

namespace BitPrefix
variable {w n : Nat} {a b : BitVec w}

/-- The first `n` bits, from the most significant one, are the same. -/
def Agree (n : Nat) (a b : BitVec w) : Prop := ∀ i < n, a.getMsbD i = b.getMsbD i

/-- All ones but for the last `k` bits. -/
def mask (w k : Nat) : BitVec w := BitVec.allOnes w <<< k

theorem agree_iff_ushiftRight (h : n ≤ w) : Agree n a b ↔ a >>> (w - n) = b >>> (w - n) := by
  constructor
  · intro hagree
    refine BitVec.eq_of_getLsbD_eq fun i hi => ?_
    rw [BitVec.getLsbD_ushiftRight, BitVec.getLsbD_ushiftRight, BitVec.getLsbD_eq_getMsbD, BitVec.getLsbD_eq_getMsbD]
    by_cases hlt : w - n + i < w
    · rw [hagree (w - 1 - (w - n + i)) (by omega)]
    · simp [hlt]
  · intro heq i hi
    have hbit : ∀ c : BitVec w, c.getMsbD i = (c >>> (w - n)).getLsbD (n - 1 - i) := by
      intro c
      rw [BitVec.getLsbD_ushiftRight, BitVec.getMsbD_eq_getLsbD, decide_eq_true (by omega : i < w), Bool.true_and]
      congr 1
      omega
    rw [hbit a, hbit b, heq]

theorem agree_iff_div (h : n ≤ w) : Agree n a b ↔ a.toNat / 2 ^ (w - n) = b.toNat / 2 ^ (w - n) := by
  rw [agree_iff_ushiftRight h, ← BitVec.toNat_inj, BitVec.toNat_ushiftRight, BitVec.toNat_ushiftRight,
    Nat.shiftRight_eq_div_pow, Nat.shiftRight_eq_div_pow]

/-! ### The ends of the interval -/

theorem and_mask (b : BitVec w) (k : Nat) : b &&& mask w k = (b >>> k) <<< k := by
  refine BitVec.eq_of_getLsbD_eq fun i hi => ?_
  simp only [mask, BitVec.getLsbD_and, BitVec.getLsbD_shiftLeft, BitVec.getLsbD_allOnes, BitVec.getLsbD_ushiftRight]
  by_cases hlt : i < k
  · simp [hlt]
  · rw [show k + (i - k) = i by omega, decide_eq_true hi, decide_eq_true (by omega : i - k < w), decide_eq_false hlt]
    simp

theorem toNat_and_mask (b : BitVec w) (k : Nat) : (b &&& mask w k).toNat = b.toNat / 2 ^ k * 2 ^ k := by
  have hle : b.toNat / 2 ^ k * 2 ^ k ≤ b.toNat := Nat.div_mul_le_self _ _
  have hlt := b.isLt
  rw [and_mask, BitVec.toNat_shiftLeft, BitVec.toNat_ushiftRight, Nat.shiftLeft_eq, Nat.shiftRight_eq_div_pow,
    Nat.mod_eq_of_lt (by omega)]

theorem ushiftRight_or_not_mask (b : BitVec w) (k : Nat) : (b ||| ~~~mask w k) >>> k = b >>> k := by
  refine BitVec.eq_of_getLsbD_eq fun i hi => ?_
  simp only [mask, BitVec.getLsbD_ushiftRight, BitVec.getLsbD_or, BitVec.getLsbD_not, BitVec.getLsbD_shiftLeft,
    BitVec.getLsbD_allOnes]
  by_cases hlt : k + i < w
  · rw [decide_eq_true hlt, decide_eq_false (by omega : ¬k + i < k), decide_eq_true (by omega : k + i - k < w)]
    simp
  · simp [hlt]

theorem setWidth_or_not_mask (b : BitVec w) {k : Nat} (h : k ≤ w) :
    (b ||| ~~~mask w k).setWidth k = BitVec.allOnes k := by
  refine BitVec.eq_of_getLsbD_eq fun i hi => ?_
  simp only [mask, BitVec.getLsbD_setWidth, BitVec.getLsbD_or, BitVec.getLsbD_not, BitVec.getLsbD_shiftLeft,
    BitVec.getLsbD_allOnes]
  rw [decide_eq_true hi, decide_eq_true (by omega : i < w)]
  simp

/-- The word with the other bits set is the last one with its quotient. -/
theorem toNat_or_not_mask (b : BitVec w) {k : Nat} (h : k ≤ w) :
    (b ||| ~~~mask w k).toNat = b.toNat / 2 ^ k * 2 ^ k + (2 ^ k - 1) := by
  have hdiv := congrArg BitVec.toNat (ushiftRight_or_not_mask b k)
  have hmod := congrArg BitVec.toNat (setWidth_or_not_mask b h)
  rw [BitVec.toNat_ushiftRight, BitVec.toNat_ushiftRight, Nat.shiftRight_eq_div_pow, Nat.shiftRight_eq_div_pow] at hdiv
  rw [BitVec.toNat_setWidth, BitVec.toNat_allOnes] at hmod
  rw [← hdiv, ← hmod, Nat.mul_comm, Nat.div_add_mod]

theorem between_iff (h : n ≤ w) : (b &&& mask w (w - n)).toNat ≤ a.toNat ∧ a.toNat ≤ (b ||| ~~~mask w (w - n)).toNat ↔
    Agree n a b := by
  have hpos : 0 < 2 ^ (w - n) := Nat.two_pow_pos _
  rw [agree_iff_div h, toNat_and_mask, toNat_or_not_mask b (Nat.sub_le w n), ← Nat.le_div_iff_mul_le hpos]
  have hupper : a.toNat ≤ b.toNat / 2 ^ (w - n) * 2 ^ (w - n) + (2 ^ (w - n) - 1) ↔
      a.toNat / 2 ^ (w - n) ≤ b.toNat / 2 ^ (w - n) := by
    rw [← Nat.lt_succ_iff, ← Nat.lt_succ_iff (n := b.toNat / 2 ^ (w - n)), Nat.div_lt_iff_lt_mul hpos, Nat.succ_mul]
    omega
  rw [hupper, Nat.le_antisymm_iff, and_comm]

end BitPrefix
