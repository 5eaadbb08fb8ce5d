import FeatureGate.Binary64.Basic

/-!
# Shortest decimals

Every finite number owns the interval of reals that round to it. Its shortest decimal is a point of
that interval on the coarsest decimal grid that has one, the point nearest to the number.
-/

namespace FeatureGate

/-- The number `digits * 10 ^ exponent`. -/
structure Decimal where
  digits : Nat
  exponent : Int
deriving DecidableEq, Repr

/-- Where a value half-way between two decimals goes. -/
inductive Tie where
  | even
  | up
deriving DecidableEq

namespace Finite64

/-- A number and the ends of the interval of reals that round to it, over one denominator. -/
structure Interval where
  low : Nat
  value : Nat
  high : Nat
  den : Nat
  closed : Bool

/-- The interval of a number without its sign. Below a power of two the neighbour is half as far
away; the ends belong to the interval when the mantissa is even. -/
def interval (x : Finite64) : Interval :=
  let lower := if x.mantissa = 2 ^ 52 ∧ 0 < x.exponent then 1 else 2
  let scale := 2 ^ x.exponent
  { low := (4 * x.mantissa - lower) * scale
    value := 4 * x.mantissa * scale
    high := (4 * x.mantissa + 2) * scale
    den := 2 ^ 1076
    closed := x.mantissa % 2 == 0 }

namespace Interval

/-- Whether `num / den` lies in the interval. -/
def contains (i : Interval) (num den : Nat) : Bool :=
  let point := num * i.den
  if i.closed then i.low * den ≤ point && point ≤ i.high * den
  else i.low * den < point && point < i.high * den

/-- The grid point next to the value that lies in the interval, on the grid of multiples of
`num / den`; of two the nearer one. -/
def gridPoint? (i : Interval) (tie : Tie) (num den : Nat) : Option Nat :=
  let step := i.den * num
  let below := i.value * den / step
  let rest := 2 * (i.value * den % step)
  let nearer := rest < step ∨ (rest = step ∧ tie = .even ∧ below % 2 = 0)
  match i.contains (below * num) den, i.contains ((below + 1) * num) den with
  | true, true => some (if nearer then below else below + 1)
  | true, false => some below
  | false, true => some (below + 1)
  | false, false => none

/-- The grid point on the grid of multiples of `10 ^ exponent`. -/
def decimalAt? (i : Interval) (tie : Tie) (exponent : Int) : Option Decimal :=
  (if 0 ≤ exponent then i.gridPoint? tie (10 ^ exponent.toNat) 1
  else i.gridPoint? tie 1 (10 ^ (-exponent).toNat)).map (⟨·, exponent⟩)

/-- The first hit on the grids `10 ^ (finest + steps)` down to `10 ^ finest`. -/
def coarsest? (i : Interval) (tie : Tie) (finest : Int) : Nat → Option Decimal
  | 0 => i.decimalAt? tie finest
  | steps + 1 =>
    match i.decimalAt? tie (finest + steps + 1) with
    | some d => some d
    | none => coarsest? i tie finest steps

end Interval

/-- A decimal exponent above that of every number of the given binary length. -/
def exponentBound (length : Int) : Int := (if 0 ≤ length then length / 3 else length * 3 / 10) + 2

/-- The exact value as a decimal. -/
def exactDecimal (x : Finite64) : Decimal :=
  if 1074 ≤ x.exponent then ⟨x.mantissa * 2 ^ (x.exponent - 1074), 0⟩
  else ⟨x.mantissa * 5 ^ (1074 - x.exponent), x.exponent - 1074⟩

/-- The shortest decimal that rounds to the number without its sign. The grid of the exact value
always has a hit. -/
def shortest (x : Finite64) (tie : Tie) : Decimal :=
  let finest := x.exactDecimal.exponent
  let top := exponentBound (x.mantissa.log2 + x.exponent - 1074)
  (x.interval.coarsest? tie finest (top - finest).toNat).getD x.exactDecimal

end Finite64

end FeatureGate
