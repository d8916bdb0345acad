import Mathlib.Data.List.Basic
import Mathlib.Data.List.TakeDrop
import Mathlib.Tactic.Ring

/-!
# Numbers in hexadecimal

A fixed number of digits, the most significant one first.
-/

namespace Hex

def digitChar (d : Nat) : Char :=
  if d < 10 then Char.ofNat (48 + d) else Char.ofNat (87 + d)

/-- The value of a digit, in either case. -/
def digitVal (c : Char) : Option Nat :=
  if '0' ≤ c ∧ c ≤ '9' then some (c.toNat - 48)
  else if 'a' ≤ c ∧ c ≤ 'f' then some (c.toNat - 87)
  else if 'A' ≤ c ∧ c ≤ 'F' then some (c.toNat - 55)
  else none

/-- The last `width` digits of the number. -/
def digits : Nat → Nat → List Char
  | 0, _ => []
  | width + 1, n => digits width (n / 16) ++ [digitChar (n % 16)]

/-- The number that the digits stand for, with `acc` before them. -/
def ofDigits (acc : Nat) : List Char → Option Nat
  | [] => some acc
  | c :: cs => (digitVal c).bind fun d => ofDigits (acc * 16 + d) cs

theorem digitVal_digitChar : ∀ d < 16, digitVal (digitChar d) = some d := by decide

theorem ne_hyphen_of_mem_digits {width n : Nat} {c : Char} (hc : c ∈ digits width n) : c ≠ '-' := by
  have hdigit : ∀ d < 16, digitChar d ≠ '-' := by decide
  induction width generalizing n with
  | zero => simp [digits] at hc
  | succ width ih =>
    rcases List.mem_append.1 hc with hc | hc
    · exact ih hc
    · rw [List.mem_singleton.1 hc]
      exact hdigit _ (Nat.mod_lt _ (by omega))

@[simp] theorem length_digits (width n : Nat) : (digits width n).length = width := by
  induction width generalizing n with
  | zero => rfl
  | succ width ih => simp [digits, ih]

theorem ofDigits_append (acc : Nat) (cs cs' : List Char) :
    ofDigits acc (cs ++ cs') = (ofDigits acc cs).bind fun n => ofDigits n cs' := by
  induction cs generalizing acc with
  | nil => rfl
  | cons c cs ih =>
    rw [List.cons_append, ofDigits, ofDigits, Option.bind_assoc]
    congr
    funext d
    exact ih _

theorem ofDigits_digits (width acc n : Nat) : ofDigits acc (digits width n) = some (acc * 16 ^ width + n % 16 ^ width) := by
  induction width generalizing n with
  | zero => simp [digits, ofDigits, Nat.mod_one]
  | succ width ih =>
    have hdigit : digitVal (digitChar (n % 16)) = some (n % 16) := digitVal_digitChar _ (Nat.mod_lt _ (by omega))
    have hsplit : n % 16 ^ (width + 1) = n / 16 % 16 ^ width * 16 + n % 16 := by
      rw [Nat.pow_succ, Nat.mul_comm, Nat.mod_mul]
      omega
    rw [digits, ofDigits_append, ih, Option.bind_some, ofDigits, hdigit, Option.bind_some, ofDigits, hsplit, Nat.pow_succ,
      Nat.add_mul, Nat.mul_assoc]
    congr 1
    omega

/-- Enough digits bring the number back. -/
theorem ofDigits_digits_of_lt {width n : Nat} (h : n < 16 ^ width) : ofDigits 0 (digits width n) = some n := by
  rw [ofDigits_digits, Nat.mod_eq_of_lt h, Nat.zero_mul, Nat.zero_add]

end Hex
