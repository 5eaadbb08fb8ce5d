import FeatureGate.Json.Basic
import FeatureGate.Binary64.Layout

/-!
# Compact JSON text

Values are written without blanks, members in the order in which they are listed.
-/

namespace FeatureGate

/-- JSON numbers from `1e-5` up to `1e16` have no exponent, and whole ones end in `.0`. -/
def NumberLayout.json : NumberLayout where
  tie := .even
  positional := fun e => -5 ≤ e && e ≤ 15
  fraction := true

namespace Json

/-- The text of an integer. -/
def intChars (n : Int) : List Char := NumberLayout.signed (n < 0) (Nat.toDigits 10 n.natAbs)

def Number.chars : Number → List Char
  | .int n _ => intChars n
  | .float x => NumberLayout.json.text x

/-- The escape of a control character that has no short one. -/
def unicodeEscape (c : Char) : List Char :=
  '\\' :: 'u' :: '0' :: '0' :: Nat.digitChar (c.toNat / 16) :: [Nat.digitChar (c.toNat % 16)]

/-- A character inside a quoted text. -/
def quotedChar (c : Char) : List Char :=
  if c = '"' then ['\\', '"']
  else if c = '\\' then ['\\', '\\']
  else if c = '\n' then ['\\', 'n']
  else if c = '\r' then ['\\', 'r']
  else if c = '\t' then ['\\', 't']
  else if c = '\x08' then ['\\', 'b']
  else if c = '\x0c' then ['\\', 'f']
  else if c.toNat < 32 then unicodeEscape c
  else [c]

def quotedChars (s : String) : List Char := '"' :: s.toList.flatMap quotedChar ++ ['"']

mutual

/-- The text of a value. -/
def chars : Json → List Char
  | .null => ['n', 'u', 'l', 'l']
  | .bool true => ['t', 'r', 'u', 'e']
  | .bool false => ['f', 'a', 'l', 's', 'e']
  | .number n => n.chars
  | .string s => quotedChars s
  | .array [] => ['[', ']']
  | .array (x :: xs) => '[' :: chars x ++ itemChars xs
  | .object [] => ['\x7b', '\x7d']
  | .object ((k, v) :: ms) => '\x7b' :: quotedChars k ++ ':' :: chars v ++ memberChars ms

/-- The rest of an array after its first item. -/
def itemChars : List Json → List Char
  | [] => [']']
  | x :: xs => ',' :: chars x ++ itemChars xs

/-- The rest of an object after its first member. -/
def memberChars : List (String × Json) → List Char
  | [] => ['\x7d']
  | (k, v) :: ms => ',' :: quotedChars k ++ ':' :: chars v ++ memberChars ms

end

def render (v : Json) : String := String.ofList v.chars

end Json

end FeatureGate
