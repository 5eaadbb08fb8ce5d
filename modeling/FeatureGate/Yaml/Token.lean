import FeatureGate.Yaml.Tag
import FeatureGate.Yaml.Text.Block
import FeatureGate.Yaml.Text.Plain
import FeatureGate.Yaml.Text.Quoted

/-!
# YAML tokens

The marks and texts of a document, and the beginnings and ends of block collections, which are told
by indentation alone. The tokens that are written out (directives, anchors, tags) are read here.
-/

namespace FeatureGate.Yaml

inductive Token where
  | version (major minor : Nat)
  /-- A short handle for the beginning of tags. -/
  | tagHandle (handle : String) (expansion : Tag)
  | documentStart
  | documentEnd
  | blockSequence
  | blockMapping
  | blockEnd
  | flowSequence
  | flowSequenceEnd
  | flowMapping
  | flowMappingEnd
  | blockEntry
  | flowEntry
  | key
  | value
  | alias (name : String)
  | anchor (name : String)
  | tag (handle : String) (suffix : Tag)
  /-- A text, and whether it is written without quotes on its own. -/
  | text (s : String) (plain : Bool)

namespace Token

/-! ## Tags -/

/-- A handle: a name between exclamation marks, the second of which may be missing. -/
def splitHandle (cs : List Char) : List Char × List Char :=
  let name := cs.tail.takeWhile isNameChar
  match cs.tail.dropWhile isNameChar with
  | '!' :: rest => ('!' :: name ++ ['!'], rest)
  | rest => ('!' :: name, rest)

/-- A tag in angle brackets is taken as it is. -/
def bracketedTag? (c : Cursor) : Option (Token × Cursor) :=
  let body := (c.rest.drop 2).takeWhile (Tag.isTagChar true)
  let after := c.skip (2 + body.length)
  if body ≠ [] ∧ after.rest.head? = some '>' then
    (Tag.read? body).map fun t => (.tag "" t, after.skip 1)
  else none

/-- A tag with a handle. What looks like a handle without its second mark belongs to the tag. -/
def shorthandTag? (c : Cursor) : Option (Token × Cursor) :=
  let (handle, afterHandle) := splitHandle c.rest
  let body := afterHandle.takeWhile (Tag.isTagChar false)
  let after := c.skip (handle.length + body.length)
  if 1 < handle.length ∧ handle.getLast? = some '!' then
    if body = [] then none
    else (Tag.read? body).map fun t => (.tag (String.ofList handle) t, after)
  else
    (Tag.read? body).map fun t =>
      let suffix := .ofChars handle.tail ++ t
      (if suffix.bytes = [] then .tag "" .mark else .tag "!" suffix, after)

/-- A tag, which ends at a blank or, inside brackets, at a comma. -/
def readTag? (flow : Bool) (c : Cursor) : Option (Token × Cursor) := do
  let (t, after) ← if c.rest[1]? = some '<' then bracketedTag? c else shorthandTag? c
  if (flow && after.rest.head? == some ',') || atBlank after.rest then return (t, after) else none

/-! ## Anchors -/

/-- The name of an anchor or alias, after its mark. -/
def readName? (c : Cursor) : Option (String × Cursor) :=
  let c := c.skip 1
  let name := c.rest.takeWhile isNameChar
  let after := c.skip name.length
  let ends := atBlank after.rest ||
    after.rest.head?.any ['?', ':', ',', ']', '\x7d', '%', '@', '\x60'].contains
  if name ≠ [] ∧ ends then some (String.ofList name, after) else none

/-! ## Directives -/

/-- A number of at most nine digits. -/
def readVersionNumber? (c : Cursor) : Option (Nat × Cursor) :=
  let digits := c.rest.takeWhile Char.isDigit
  if digits = [] ∨ 9 < digits.length then none
  else some (Nat.ofDigitChars 10 digits 0, c.skip digits.length)

def readVersion? (c : Cursor) : Option (Token × Cursor) := do
  let (major, c) ← readVersionNumber? c.skipSpacesAndTabs
  if c.rest.head? = some '.' then
    let (minor, c) ← readVersionNumber? (c.skip 1)
    return (.version major minor, c)
  else none

def readTagHandle? (c : Cursor) : Option (Token × Cursor) := do
  let c := c.skipSpacesAndTabs
  if c.rest.head? ≠ some '!' then none
  else
    let (handle, _) := splitHandle c.rest
    if handle ≠ ['!'] ∧ handle.getLast? ≠ some '!' then none
    else
      let c := c.skip handle.length
      if !c.rest.head?.any isSpaceOrTab then none
      else
        let c := c.skipSpacesAndTabs
        let body := c.rest.takeWhile (Tag.isTagChar true)
        let after := c.skip body.length
        if body = [] ∨ !atBlank after.rest then none
        else return (.tagHandle (String.ofList handle) (← Tag.read? body), after)

/-- A directive, up to the end of its line. -/
def readDirective? (c : Cursor) : Option (Token × Cursor) := do
  let c := c.skip 1
  let name := c.rest.takeWhile isNameChar
  let c := c.skip name.length
  if !atBlank c.rest then none
  else
    let (t, c) ←
      if name = "YAML".toList then readVersion? c
      else if name = "TAG".toList then readTagHandle? c
      else none
    return (t, ← c.skipLineEnd?)

end Token

end FeatureGate.Yaml
