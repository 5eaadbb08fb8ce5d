import FeatureGate.Binary64.Literal
import FeatureGate.Json.Token
import FeatureGate.Yaml.Tag

/-!
# The values of YAML texts

A plain text without a tag is null, a boolean, an integer or a binary64 number if it is spelled like
one; every other text is a string. A tag of the standard kinds asks for one kind of value.
-/

namespace FeatureGate.Yaml

namespace Scalar

def isNull (s : String) : Bool := s = "null" || s = "Null" || s = "NULL" || s = "~"

def bool? (s : String) : Option Bool :=
  if s = "true" ∨ s = "True" ∨ s = "TRUE" then some true
  else if s = "false" ∨ s = "False" ∨ s = "FALSE" then some false
  else none

/-! ## Integers -/

/-- The number that digits of a base denote; there is at least one digit. -/
def digits? (base : Nat) (digits : List Char) : Option Nat :=
  if digits.isEmpty then none
  else digits.foldlM (fun n c => (Json.hexValue? c).bind fun d =>
    if d < base then some (base * n + d) else none) 0

/-- Whether decimal digits begin with a zero that says nothing. Such digits are no number. -/
def isZeroLed : List Char → Bool
  | '0' :: c :: cs => (c :: cs).all Char.isDigit
  | _ => false

/-- An integer without a sign. -/
def natural? : List Char → Option Nat
  | '0' :: 'x' :: digits => digits? 16 digits
  | '0' :: 'o' :: digits => digits? 8 digits
  | '0' :: 'b' :: digits => digits? 2 digits
  | digits => if isZeroLed digits then none else digits? 10 digits

/-- An integer of at most 128 bits; there are no wider ones. -/
def integer? (cs : List Char) : Option Int :=
  let n? : Option Int := match cs with
    | '-' :: rest => (natural? rest).map fun n => -n
    | '+' :: rest => (natural? rest).map fun n => n
    | _ => (natural? cs).map fun n => n
  n?.filter fun n => -2 ^ 127 ≤ n ∧ n < 2 ^ 128

/-- The value of an integer, which has at most 64 bits. -/
def integerValue? (n : Int) : Option Json := (Json.Number.ofInt? n).map .number

/-! ## Binary64 numbers -/

def isInfinityWord (cs : List Char) : Bool :=
  cs = ".inf".toList || cs = ".Inf".toList || cs = ".INF".toList

def isNanWord (cs : List Char) : Bool :=
  cs = ".nan".toList || cs = ".NaN".toList || cs = ".NAN".toList

def isSign (c : Char) : Bool := c == '+' || c == '-'

/-- A number whose digits denote a finite one. -/
def finite? (cs : List Char) : Option Binary64 :=
  match Binary64.read? cs with
  | some (.finite x) => some (.finite x)
  | _ => none

/-- A number, in digits or by the words for what is not finite. -/
def float? (cs : List Char) : Option Binary64 :=
  match cs with
  | '+' :: rest =>
    if rest.head?.any isSign then none
    else if isInfinityWord rest then some (.infinity false)
    else finite? rest
  | '-' :: rest => if isInfinityWord rest then some (.infinity true) else finite? cs
  | _ =>
    if isInfinityWord cs then some (.infinity false)
    else if isNanWord cs then some .nan
    else finite? cs

/-- Whether a text is made of digits that are no number because they begin with a zero. -/
def isDigitText : List Char → Bool
  | c :: cs => if isSign c then isZeroLed cs else isZeroLed (c :: cs)
  | [] => false

/-! ## Values -/

/-- The value of a plain text without a tag. An integer of more than 64 bits has none. -/
def plainValue? (s : String) : Option Json :=
  let cs := s.toList
  if s = "" ∨ isNull s then some .null
  else
    match bool? s, integer? cs with
    | some b, _ => some (.bool b)
    | none, some n => integerValue? n
    | none, none =>
      if isDigitText cs then some (.string s)
      else some ((float? cs).elim (.string s) .ofBinary64)

/-- Whether a tag is of the writer's own making: local, and a text. -/
def isCustomTag (tag : Tag) : Bool := tag.isLocal && tag.isText

/-- The value of a text with a tag. A local tag that is no text says nothing about a plain text; other
tags that are not known say that the text is a string. -/
def taggedValue? (tag : Tag) (s : String) (plain : Bool) : Option Json :=
  if isCustomTag tag then none
  else if tag = .standard "bool" then (bool? s).map .bool
  else if tag = .standard "int" then (integer? s.toList).bind integerValue?
  else if tag = .standard "float" then (float? s.toList).map .ofBinary64
  else if tag = .standard "null" then (if isNull s then some .null else none)
  else if tag.isLocal && plain then plainValue? s
  else some (.string s)

/-- The value of a text. -/
def value? (tag : Option Tag) (s : String) (plain : Bool) : Option Json :=
  match tag with
  | some t => taggedValue? t s plain
  | none => if plain then plainValue? s else some (.string s)

end Scalar

end FeatureGate.Yaml
