import FeatureGate.Binary64.Rounding

/-!
# Reading number texts

Texts of binary64 numbers: an optional sign, then digits with an optional point and an optional
exponent, or one of the words for infinity and not-a-number in any case.
-/

namespace FeatureGate

/-- A decimal numeral: whole digits, digits after the point, and the exponent. -/
structure Numeral where
  whole : List Char
  fraction : List Char
  exponent : Int

namespace Numeral

/-- The digits, with the whole part and the fraction run together, as a number. -/
def digits (n : Numeral) : Nat := Nat.ofDigitChars 10 (n.whole ++ n.fraction) 0

/-- The number nearest to the numeral. -/
def toBinary64 (n : Numeral) (negative : Bool) : Binary64 :=
  .ofDecimal negative n.digits (n.exponent - n.fraction.length)

/-- An optional sign and the rest. -/
def splitSign : List Char → Bool × List Char
  | '-' :: rest => (true, rest)
  | '+' :: rest => (false, rest)
  | rest => (false, rest)

/-- An exponent at the end of a numeral; the empty text is the exponent zero. -/
def exponent? : List Char → Option Int
  | [] => some 0
  | e :: rest =>
    if e = 'e' ∨ e = 'E' then
      let (negative, digits) := splitSign rest
      if digits ≠ [] ∧ digits.all Char.isDigit then
        let n := Nat.ofDigitChars 10 digits 0
        some (if negative then -(n : Int) else n)
      else none
    else none

/-- The digits after a point, if there is one, and what follows them. -/
def splitFraction : List Char → Option (List Char) × List Char
  | '.' :: rest => (some (rest.takeWhile Char.isDigit), rest.dropWhile Char.isDigit)
  | rest => (none, rest)

/-- A numeral without a sign. At least one digit stands before or after the point. -/
def read? (text : List Char) : Option Numeral :=
  let whole := text.takeWhile Char.isDigit
  let (fraction, rest) := splitFraction (text.dropWhile Char.isDigit)
  let fraction := fraction.getD []
  if whole = [] ∧ fraction = [] then none
  else (exponent? rest).map fun e => ⟨whole, fraction, e⟩

end Numeral

/-- The number that a text denotes. -/
def Binary64.read? (text : List Char) : Option Binary64 :=
  let (negative, rest) := Numeral.splitSign text
  let word := rest.map Char.toLower
  if word = "inf".toList ∨ word = "infinity".toList then some (.infinity negative)
  else if word = "nan".toList then some .nan
  else (Numeral.read? rest).map fun n => n.toBinary64 negative

end FeatureGate
