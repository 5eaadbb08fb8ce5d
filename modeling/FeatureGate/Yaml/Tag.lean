import FeatureGate.Json.Token
import FeatureGate.Yaml.Cursor

/-!
# YAML tags

A tag is a row of bytes, some of which may be written as numbers. Bytes written as numbers come in the
groups that make up characters, but need not make up characters that exist. A zero byte ends what is
written of a tag.
-/

namespace FeatureGate.Yaml

structure Tag where
  bytes : List UInt8
deriving DecidableEq, Inhabited

namespace Tag

def ofChars (cs : List Char) : Tag := ⟨(String.ofList cs).toUTF8.toList⟩

def append (a b : Tag) : Tag := ⟨a.bytes ++ b.bytes⟩

instance : Append Tag := ⟨append⟩

/-- A tag of the standard kinds. -/
def standard (name : String) : Tag := ofChars "tag:yaml.org,2002:".toList ++ ofChars name.toList

/-- The tag of one exclamation mark. -/
def mark : Tag := ofChars ['!']

/-- Whether the tag begins with an exclamation mark. -/
def isLocal (t : Tag) : Bool := t.bytes.head? == some '!'.toUInt8

/-- Whether the bytes make up characters. -/
def isText (t : Tag) : Bool := (String.fromUTF8? ⟨t.bytes.toArray⟩).isSome

/-! ## Reading -/

/-- The characters of tags; those inside angle brackets have a few more. -/
def isTagChar (bracketed : Bool) (c : Char) : Bool :=
  isNameChar c ||
    [';', '/', '?', ':', '@', '&', '=', '+', '$', '.', '%', '!', '~', '*', '\'', '(', ')'].contains c ||
    (bracketed && [',', '[', ']'].contains c)

/-- How many bytes follow the first one of a character. -/
def following? (n : Nat) : Option Nat :=
  if n < 0x80 then some 0
  else if 0xc0 ≤ n ∧ n < 0xe0 then some 1
  else if 0xe0 ≤ n ∧ n < 0xf0 then some 2
  else if 0xf0 ≤ n ∧ n < 0xf8 then some 3
  else none

/-- How many bytes of a character are missing after one more, when some number of them is missing
before it. -/
def missingAfter? (missing n : Nat) : Option Nat :=
  if missing = 0 then following? n
  else if 0x80 ≤ n ∧ n < 0xc0 then some (missing - 1)
  else none

/-- The bytes that are written, when some bytes of a character are missing. -/
def writtenBytes? (missing : Nat) : List Char → Option (List UInt8)
  | [] => if missing = 0 then some [] else none
  | '%' :: a :: b :: rest => do
    let n ← Json.hexNumber? [a, b]
    let missing ← missingAfter? missing n
    return UInt8.ofNat n :: (← writtenBytes? missing rest)
  | c :: rest =>
    if c = '%' ∨ missing ≠ 0 then none else (writtenBytes? 0 rest).map (c.toUInt8 :: ·)

/-- The tag that is written with these characters. -/
def read? (cs : List Char) : Option Tag :=
  (writtenBytes? 0 cs).map fun bytes => ⟨bytes.takeWhile (· ≠ 0)⟩

end Tag

end FeatureGate.Yaml
