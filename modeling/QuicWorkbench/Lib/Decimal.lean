import Mathlib.Data.List.Basic
import Mathlib.Tactic.SplitIfs

/-!
# Numbers in decimal

What a sequence of digits stands for, and which of the sequences for a number is the one that is written.
-/

namespace Decimal
variable {c : Char} {cs : List Char} {n acc : Nat}

/-- The digits stand for the number. There may be leading zeros. -/
structure Denotes (cs : List Char) (n : Nat) : Prop where
  ne_nil : cs ≠ []
  isDigit : ∀ c ∈ cs, c.isDigit
  value : Nat.ofDigitChars 10 cs 0 = n

theorem digitChar_sub (h : c.isDigit) : Nat.digitChar (c.toNat - 48) = c := by
  have hrange : 48 ≤ c.toNat ∧ c.toNat ≤ 57 := Char.isDigit_iff_toNat.1 h
  rw [← Char.toNat_inj, Nat.toNat_digitChar_of_lt_ten (by omega)]
  omega

theorem digit_lt (h : c.isDigit) : c.toNat - 48 < 10 := by
  have hrange : 48 ≤ c.toNat ∧ c.toNat ≤ 57 := Char.isDigit_iff_toNat.1 h
  omega

theorem le_ofDigitChars (cs : List Char) (acc : Nat) : acc ≤ Nat.ofDigitChars 10 cs acc := by
  induction cs generalizing acc with
  | nil => exact Nat.le_of_eq Nat.ofDigitChars_nil.symm
  | cons c cs ih =>
    rw [Nat.ofDigitChars_cons]
    have hle := ih (10 * acc + (c.toNat - '0'.toNat))
    omega

/-- Digits after a number without leading zeros. -/
theorem toDigits_append (hpos : 0 < acc) (h : ∀ c ∈ cs, c.isDigit) :
    Nat.toDigits 10 acc ++ cs = Nat.toDigits 10 (Nat.ofDigitChars 10 cs acc) := by
  induction cs generalizing acc with
  | nil => rw [Nat.ofDigitChars_nil, List.append_nil]
  | cons c cs ih =>
    have hc := h c (List.mem_cons_self ..)
    have hstep : Nat.toDigits 10 acc ++ [c] = Nat.toDigits 10 (10 * acc + (c.toNat - 48)) := by
      rw [← Nat.toDigits_append_toDigits (by decide) hpos (digit_lt hc), Nat.toDigits_of_lt_base (digit_lt hc),
        digitChar_sub hc]
    calc Nat.toDigits 10 acc ++ c :: cs = Nat.toDigits 10 acc ++ [c] ++ cs := by rw [List.append_assoc]; rfl
      _ = Nat.toDigits 10 (Nat.ofDigitChars 10 cs (10 * acc + (c.toNat - 48))) := by
        rw [hstep, ih (by omega) fun c hc => h c (List.mem_cons_of_mem _ hc)]
      _ = Nat.toDigits 10 (Nat.ofDigitChars 10 (c :: cs) acc) := by rw [Nat.ofDigitChars_cons]; rfl

/-- Without leading zeros the digits are the ones that are written. -/
theorem Denotes.eq_toDigits (h : Denotes cs n) (hlead : cs.head? = some '0' → cs.length = 1) : cs = Nat.toDigits 10 n := by
  obtain ⟨hne, hdigits, rfl⟩ := h
  cases cs with
  | nil => exact absurd rfl hne
  | cons c cs =>
    have hc := hdigits c (List.mem_cons_self ..)
    have htoDigits : Nat.toDigits 10 (c.toNat - 48) = [c] := by
      rw [Nat.toDigits_of_lt_base (digit_lt hc), digitChar_sub hc]
    have hvalue : Nat.ofDigitChars 10 (c :: cs) 0 = Nat.ofDigitChars 10 cs (c.toNat - 48) := by
      rw [Nat.ofDigitChars_cons, Nat.mul_zero, Nat.zero_add]
      rfl
    rw [hvalue]
    by_cases hzero : c = '0'
    · obtain rfl : cs = [] := by simpa [hzero] using hlead
      rw [Nat.ofDigitChars_nil, htoDigits]
    · have hpos : 0 < c.toNat - 48 := by
        have hne : c.toNat ≠ 48 := fun heq => hzero (Char.toNat_inj.1 heq)
        have hrange : 48 ≤ c.toNat ∧ c.toNat ≤ 57 := Char.isDigit_iff_toNat.1 hc
        omega
      rw [← toDigits_append hpos fun c hc => hdigits c (List.mem_cons_of_mem _ hc), htoDigits]
      rfl

theorem denotes_toDigits (n : Nat) : Denotes (Nat.toDigits 10 n) n :=
  ⟨Nat.toDigits_ne_nil, fun _ => Nat.isDigit_of_mem_toDigits (by decide) (by decide), Nat.ofDigitChars_ten_toDigits⟩

/-- What is written has no leading zero, unless it is 0. -/
theorem eq_zero_of_head (h : (Nat.toDigits 10 n).head? = some '0') : n = 0 := by
  induction n using Nat.strongRecOn with
  | ind n ih =>
    rw [Nat.toDigits_eq_if (by decide)] at h
    split_ifs at h with hlt
    · simpa using h
    · rw [List.head?_append_of_ne_nil _ Nat.toDigits_ne_nil] at h
      have hzero := ih (n / 10) (by omega) h
      omega

end Decimal
