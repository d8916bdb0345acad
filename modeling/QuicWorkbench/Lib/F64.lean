import Mathlib.Algebra.Ring.Nat

/-!
# `f64` and durations

The conversions between durations, in nanoseconds, and seconds as an `f64`, with the roundings of each. `Float` is the same
format, and its sums, products and quotients round as the ones of `f64` do.
-/

namespace F64

/-- The nearest number to an integer. -/
def ofNat (n : ℕ) : Float := .ofModel (.ofNat n)

/-- The nearest integer of a fraction, the even one of two. -/
def roundTiesEven (num den : ℕ) : ℕ :=
  if 2 * (num % den) < den ∨ 2 * (num % den) = den ∧ num / den % 2 = 0 then num / den else num / den + 1

/-- `f64::round`, of a number that is not negative: halves are rounded up. -/
def round (x : Float) : Float :=
  match x.toModel.unpack with
  -- the number is `mantissa / 2 ^ (k + 1)`
  | .finite _ mantissa (.negSucc k) _ => ofNat ((2 * mantissa + 2 ^ (k + 1)) / 2 ^ (k + 2))
  | _ => x

/-- `Duration::as_secs_f64`. -/
def asSecs (d : ℕ) : Float := ofNat (d / 10 ^ 9) + ofNat (d % 10 ^ 9) / ofNat (10 ^ 9)

/-- `Duration::from_secs_f64`, of a number that is finite and not negative: the nearest nanosecond. -/
def fromSecs (x : Float) : ℕ :=
  match x.toModel.unpack with
  | .finite _ mantissa (.ofNat k) _ => mantissa * 2 ^ k * 10 ^ 9
  | .finite _ mantissa (.negSucc k) _ => roundTiesEven (mantissa * 10 ^ 9) (2 ^ (k + 1))
  | _ => 0

end F64
