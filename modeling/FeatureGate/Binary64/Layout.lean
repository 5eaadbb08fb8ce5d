import FeatureGate.Binary64.Shortest

/-!
# Number texts

How the shortest decimal of a number is laid out: with or without an exponent, and with or without
a fraction on whole numbers.
-/

namespace FeatureGate

/-- The choices of one written form of numbers. -/
structure NumberLayout where
  tie : Tie
  /-- Whether a number is written without an exponent, by the decimal exponent of its first digit. -/
  positional : Int → Bool
  /-- Whether a whole number written without an exponent ends in `.0`. -/
  fraction : Bool

namespace NumberLayout

def signed (negative : Bool) (text : List Char) : List Char :=
  if negative then '-' :: text else text

/-- The digits with a point before the last `places` of them, filled up with zeros on the left. -/
def withPoint (digits : List Char) (places : Nat) : List Char :=
  let padded := List.replicate (places + 1 - digits.length) '0' ++ digits
  padded.take (padded.length - places) ++ '.' :: padded.drop (padded.length - places)

def positionalText (layout : NumberLayout) (d : Decimal) : List Char :=
  let digits := Nat.toDigits 10 d.digits
  if d.exponent < 0 then withPoint digits (-d.exponent).toNat
  else digits ++ List.replicate d.exponent.toNat '0' ++ (if layout.fraction then ['.', '0'] else [])

def scientificText (digits : List Char) (exponent : Int) : List Char :=
  let mantissa := match digits with
    | [] => []
    | [c] => [c]
    | c :: rest => c :: '.' :: rest
  mantissa ++ 'e' :: (if exponent < 0 then '-' else '+') :: Nat.toDigits 10 exponent.natAbs

/-- The text of a nonzero decimal. -/
def decimalText (layout : NumberLayout) (d : Decimal) : List Char :=
  let digits := Nat.toDigits 10 d.digits
  let exponent := d.exponent + digits.length - 1
  if layout.positional exponent then layout.positionalText d else scientificText digits exponent

/-- The text of a finite number. -/
def text (layout : NumberLayout) (x : Finite64) : List Char :=
  signed x.negative <|
    if x.mantissa = 0 then layout.positionalText ⟨0, 0⟩
    else layout.decimalText (x.shortest layout.tie)

end NumberLayout

/-- Numbers in messages never have an exponent, and whole ones no fraction. -/
def NumberLayout.plain : NumberLayout where
  tie := .up
  positional := fun _ => true
  fraction := false

/-- The text of a number in a message. -/
def Binary64.plainText : Binary64 → String
  | .nan => "NaN"
  | .infinity negative => String.ofList (NumberLayout.signed negative "inf".toList)
  | .finite x => String.ofList (NumberLayout.plain.text x)

end FeatureGate
