import FeatureGate.Binary64.Literal

/-!
# Reading numerals by scaling

A quick way to read a numeral, which is not always the nearest number: as many digits as make a
number of 64 bits are rounded, and the result is multiplied or divided by a rounded power of ten and
rounded again. The last digit may come out wrong where the digits or the power are not exact.
-/

namespace FeatureGate

namespace Finite64

/-- The product, rounded. -/
def mul (x y : Finite64) : Binary64 :=
  .ofRatio (x.negative != y.negative) (x.magnitude * y.magnitude) (unitsPerOne ^ 2)

/-- The quotient by a number other than zero, rounded. -/
def div (x y : Finite64) : Binary64 :=
  .ofRatio (x.negative != y.negative) x.magnitude y.magnitude

/-- A power of ten, rounded; there is none beyond the largest number. -/
def powerOfTen? (k : Nat) : Option Finite64 :=
  if k ≤ 308 then (Binary64.ofRatio false (10 ^ k) 1).finite? else none

/-- The number times a power of ten, unless it is too large. From the largest power of ten on, a
quotient is taken in two steps, and after these nothing is left of it. -/
def scale? (x : Finite64) (exponent : Int) : Option Finite64 := do
  if x.mantissa = 0 then return x
  else if 0 ≤ exponent then (x.mul (← powerOfTen? exponent.toNat)).finite?
  else if -308 ≤ exponent then (x.div (← powerOfTen? (-exponent).toNat)).finite?
  else if -616 ≤ exponent then
    let y ← (x.div (← powerOfTen? 308)).finite?
    (y.div (← powerOfTen? (-exponent - 308).toNat)).finite?
  else return .zero x.negative

end Finite64

namespace Numeral

/-- Appends digits to a number as long as it stays below `2 ^ 64`; also the digits that are left. -/
def takeDigits (n : Nat) : List Char → Nat × List Char
  | [] => (n, [])
  | c :: cs =>
    let next := 10 * n + (c.toNat - '0'.toNat)
    if next < 2 ^ 64 then takeDigits next cs else (n, c :: cs)

/-- The digits that make a number of 64 bits, and its exponent. Whole digits that are left count in
the exponent; what is left of the fraction is dropped. -/
def significand (n : Numeral) : Nat × Int :=
  let (whole, left) := takeDigits 0 n.whole
  let (digits, dropped) := takeDigits whole n.fraction
  (digits, n.exponent + left.length - (n.fraction.length - dropped.length : Nat))

/-- The number of the numeral by scaling, unless it is too large. -/
def scaled? (n : Numeral) (negative : Bool) : Option Finite64 := do
  let (digits, exponent) := n.significand
  let x ← (Binary64.ofRatio negative digits 1).finite?
  x.scale? exponent

end Numeral

end FeatureGate
