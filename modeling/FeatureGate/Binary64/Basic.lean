/-!
# Binary64 numbers as exact data

A finite number is a signed mantissa at a binary exponent, with one representation per value and
sign of zero. Its exact value is an integer multiple of `2 ^ -1074`, so order and equality with
integers are integer arithmetic.
-/

namespace FeatureGate

/-- Powers are those of core, also where algebra is imported. -/
@[default_instance 20000]
instance (priority := 20000) corePow {α : Type} [NatPow α] : Pow α Nat := instPowNat

/-- The number `± mantissa * 2 ^ (exponent - 1074)`. -/
structure Finite64 where
  negative : Bool
  mantissa : Nat
  exponent : Nat
  /-- Either the least exponent, or a mantissa of full length. -/
  normal : mantissa < 2 ^ 53 ∧ exponent ≤ 2045 ∧ (exponent = 0 ∨ 2 ^ 52 ≤ mantissa)
deriving DecidableEq

namespace Finite64

def zero (negative : Bool) : Finite64 := ⟨negative, 0, 0, by decide⟩

instance : Inhabited Finite64 := ⟨zero false⟩

/-- The value in units of `2 ^ -1074`, without its sign. -/
def magnitude (x : Finite64) : Nat := x.mantissa * 2 ^ x.exponent

/-- The value in units of `2 ^ -1074`. -/
def units (x : Finite64) : Int := if x.negative then -(x.magnitude : Int) else x.magnitude

/-- How many units make one. -/
def unitsPerOne : Nat := 2 ^ 1074

/-- Numerical equality: the two zeros are equal. -/
def same (x y : Finite64) : Bool :=
  x.mantissa == y.mantissa && x.exponent == y.exponent &&
    (x.negative == y.negative || x.mantissa == 0)

/-- The integer that the number is, unless it has a fraction. -/
def toInt? (x : Finite64) : Option Int :=
  let whole : Option Nat :=
    if 1074 ≤ x.exponent then some (x.mantissa * 2 ^ (x.exponent - 1074))
    else if x.mantissa % 2 ^ (1074 - x.exponent) = 0 then
      some (x.mantissa / 2 ^ (1074 - x.exponent))
    else none
  whole.map fun n : Nat => if x.negative then -(n : Int) else n

end Finite64

/-- A binary64 number, with one undifferentiated value that is not a number. -/
inductive Binary64 where
  | nan
  | infinity (negative : Bool)
  | finite (x : Finite64)
deriving DecidableEq, Inhabited

namespace Binary64

def zero : Binary64 := .finite (.zero false)

/-- The finite number, if it is one. -/
def finite? : Binary64 → Option Finite64
  | .finite x => some x
  | _ => none

/-- Whether the number is zero, of either sign. -/
def isZero : Binary64 → Bool
  | .finite x => x.mantissa == 0
  | _ => false

/-- Whether the integer is at most the number. -/
def atLeast (x : Binary64) (n : Int) : Bool :=
  match x with
  | .nan => false
  | .infinity negative => !negative
  | .finite x => n * Finite64.unitsPerOne ≤ x.units

/-- Whether the integer is at least the number. -/
def atMost (x : Binary64) (n : Int) : Bool :=
  match x with
  | .nan => false
  | .infinity negative => negative
  | .finite x => x.units ≤ n * Finite64.unitsPerOne

/-- Numerical equality: the two zeros are equal, and what is not a number equals nothing. -/
def same : Binary64 → Binary64 → Bool
  | .infinity a, .infinity b => a == b
  | .finite x, .finite y => x.same y
  | _, _ => false

end Binary64

end FeatureGate
