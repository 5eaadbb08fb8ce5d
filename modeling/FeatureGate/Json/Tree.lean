import FeatureGate.Json.Token

/-!
# JSON texts as trees

A `Tree` is a text as it was written: members keep their order and may repeat, and a leaf may be
without a value. `Tree.ofTokens?` reads one with a stack of the containers that are still open;
`Tree.value?` gives its value, if the containers are not nested too deeply. `Json.parse?` is the two
together.
-/

namespace FeatureGate.Json

inductive Tree where
  | null
  | bool (b : Bool)
  | number (n : Option Number)
  | text (s : Option String)
  | array (items : List Tree)
  | object (members : List (Option String × Tree))
deriving Inhabited

namespace Tree

/-- A container that is still open, with what it holds so far, last first. -/
inductive Frame where
  | array (items : List Tree)
  | object (members : List (Option String × Tree)) (key : Option String)

/-- What may come next in a text. -/
inductive Expected where
  /-- A value. -/
  | value
  /-- An item or the end of an array. -/
  | firstItem
  /-- A key or the end of an object. -/
  | firstKey
  /-- A key after a comma. -/
  | key (members : List (Option String × Tree))
  /-- The colon after a key. -/
  | colon (members : List (Option String × Tree)) (key : Option String)
  /-- A comma or the end of the innermost container, which ends in this value. -/
  | after (v : Tree)

structure Reader where
  frames : List Frame
  expected : Expected

/-- A scalar, or the token that opens a container, where a value is expected. -/
def Reader.value? (frames : List Frame) : Token → Option Reader
  | .null => some ⟨frames, .after .null⟩
  | .bool b => some ⟨frames, .after (.bool b)⟩
  | .number n => some ⟨frames, .after (.number n)⟩
  | .text s => some ⟨frames, .after (.text s)⟩
  | .openBracket => some ⟨.array [] :: frames, .firstItem⟩
  | .openBrace => some ⟨frames, .firstKey⟩
  | _ => none

def Reader.step? (r : Reader) (t : Token) : Option Reader :=
  match r.expected, r.frames, t with
  | .value, frames, t => Reader.value? frames t
  | .firstItem, _ :: frames, .closeBracket => some ⟨frames, .after (.array [])⟩
  | .firstItem, frames, t => Reader.value? frames t
  | .firstKey, frames, .closeBrace => some ⟨frames, .after (.object [])⟩
  | .firstKey, frames, .text k => some ⟨frames, .colon [] k⟩
  | .key members, frames, .text k => some ⟨frames, .colon members k⟩
  | .colon members k, frames, .colon => some ⟨.object members k :: frames, .value⟩
  | .after v, .array items :: frames, .comma => some ⟨.array (v :: items) :: frames, .value⟩
  | .after v, .array items :: frames, .closeBracket =>
    some ⟨frames, .after (.array (v :: items).reverse)⟩
  | .after v, .object members k :: frames, .comma => some ⟨frames, .key ((k, v) :: members)⟩
  | .after v, .object members k :: frames, .closeBrace =>
    some ⟨frames, .after (.object ((k, v) :: members).reverse)⟩
  | _, _, _ => none

/-- The tree that all the tokens together spell. -/
def ofTokens? (tokens : List Token) : Option Tree :=
  match tokens.foldlM Reader.step? ⟨[], .value⟩ with
  | some ⟨[], .after v⟩ => some v
  | _ => none

def ofText? (text : String) : Option Tree := (Token.scan? text.toList).bind ofTokens?

mutual

/-- The value of a tree, with at most `room` containers inside one another. -/
def value? (room : Nat) : Tree → Option Json
  | .null => some .null
  | .bool b => some (.bool b)
  | .number n => n.map .number
  | .text s => s.map .string
  | .array items => if room = 0 then none else (itemValues? (room - 1) items).map .array
  | .object members =>
    if room = 0 then none else (memberValues? (room - 1) members).map .ofMembers

def itemValues? (room : Nat) : List Tree → Option (List Json)
  | [] => some []
  | t :: ts => do
    let v ← value? room t
    let vs ← itemValues? room ts
    return v :: vs

def memberValues? (room : Nat) : List (Option String × Tree) → Option (List (String × Json))
  | [] => some []
  | (k, t) :: ts => do
    let key ← k
    let v ← value? room t
    let vs ← memberValues? room ts
    return (key, v) :: vs

end

mutual

/-- A value as a tree, with its members in their order. -/
def ofJson : Json → Tree
  | .null => .null
  | .bool b => .bool b
  | .number n => .number (some n)
  | .string s => .text (some s)
  | .array items => .array (ofItems items)
  | .object members => .object (ofMembers members)

def ofItems : List Json → List Tree
  | [] => []
  | v :: vs => ofJson v :: ofItems vs

def ofMembers : List (String × Json) → List (Option String × Tree)
  | [] => []
  | (k, v) :: ms => (some k, ofJson v) :: ofMembers ms

end

end Tree

/-- How many containers may lie inside one another in a text. -/
def maxDepth : Nat := 127

/-- The value of a text. -/
def parse? (text : String) : Option Json := (Tree.ofText? text).bind (Tree.value? maxDepth)

end FeatureGate.Json
