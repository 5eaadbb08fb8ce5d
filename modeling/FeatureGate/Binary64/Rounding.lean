import FeatureGate.Binary64.Basic

/-!
# Rounding to binary64

The nearest binary64 number of a ratio, an integer or a decimal; a tie goes to the even mantissa,
and what lies beyond the largest number goes to infinity.
-/

namespace FeatureGate

namespace Binary64

/-- The quotient rounded to the nearest integer, a tie to the even one. -/
def roundEven (num den : Nat) : Nat :=
  let q := num / den
  let twice := 2 * (num % den)
  if twice < den then q
  else if den < twice then q + 1
  else q + q % 2

/-- The number with this mantissa and exponent, or infinity beyond the range. A mantissa that
rounding has carried to `2 ^ 53` is moved to the next exponent. -/
def ofMantissa (negative : Bool) (mantissa exponent : Nat) : Binary64 :=
  let carried := mantissa = 2 ^ 53
  let m := if carried then 2 ^ 52 else mantissa
  let e := if carried then exponent + 1 else exponent
  if h : m < 2 ^ 53 ∧ e ≤ 2045 ∧ (e = 0 ∨ 2 ^ 52 ≤ m) then .finite ⟨negative, m, e, h⟩
  else .infinity negative

/-- The number nearest to `± num / den`, for a positive denominator. -/
def ofRatio (negative : Bool) (num den : Nat) : Binary64 :=
  let units := num * Finite64.unitsPerOne
  let whole := units / den
  let exponent := if whole < 2 ^ 53 then 0 else whole.log2 - 52
  ofMantissa negative (roundEven units (den * 2 ^ exponent)) exponent

/-- The number nearest to an integer. -/
def ofInt (n : Int) : Binary64 := ofRatio (n < 0) n.natAbs 1

/-- How many decimal digits a number has; zero has none. -/
def digitCount (n : Nat) : Nat := if n = 0 then 0 else (Nat.toDigits 10 n).length

/-- The number nearest to `± digits * 10 ^ exponent`. Far outside the range the answer is known
without computing the power. -/
def ofDecimal (negative : Bool) (digits : Nat) (exponent : Int) : Binary64 :=
  let top := exponent + digitCount digits
  if digits = 0 ∨ top < -330 then .finite (.zero negative)
  else if 310 < top then .infinity negative
  else if 0 ≤ exponent then ofRatio negative (digits * 10 ^ exponent.toNat) 1
  else ofRatio negative digits (10 ^ (-exponent).toNat)

end Binary64

end FeatureGate
