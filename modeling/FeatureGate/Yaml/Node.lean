import FeatureGate.Yaml.Layout

/-!
# YAML nodes

The tree of a document: texts, sequences and mappings with their anchors and tags, and aliases of
other nodes. `Node.ofTokens?` reads the only document of a token list; every function before it
answers what it has read and the tokens that are left.
-/

namespace FeatureGate.Yaml

/-- What may be written before a node; `α` is what an anchor is known by. -/
structure Properties (α : Type) where
  anchor : Option α
  tag : Option Tag
deriving DecidableEq, Inhabited

inductive Node (α : Type) where
  | text (props : Properties α) (s : String) (plain : Bool)
  | alias (anchor : α)
  | sequence (props : Properties α) (items : List (Node α))
  | mapping (props : Properties α) (entries : List (Node α × Node α))
deriving Inhabited

def Properties.none {α : Type} : Properties α := ⟨.none, .none⟩

namespace Node

/-- A node that is not written at all. -/
def absent {α : Type} : Node α := .text .none "" true

/-- A node of properties alone is an empty text. -/
def ofProperties? (props : Properties String) : Option (Node String) :=
  if props = .none then none else some (.text props "" true)

/-- Handles of tags and what they stand for. -/
abbrev Handles := List (String × Tag)

/-- The handles that need no directive. -/
def standardHandles : Handles := [("!", .mark), ("!!", .standard "")]

/-- The full tag of a handle and a suffix; a tag without a handle is full already. -/
def fullTag? (handles : Handles) (handle : String) (suffix : Tag) : Option Tag :=
  if handle = "" then some suffix
  else ((handles ++ standardHandles).lookup handle).map (· ++ suffix)

/-- Where a node stands. Block collections begin only outside brackets, and a sequence that is not
indented only as a part of a block mapping. -/
inductive Place where
  | block
  | blockEntry
  | flow
deriving DecidableEq

/-! ## The tokens that show that a part is absent -/

def endsBlockItem : Token → Bool
  | .blockEntry | .blockEnd => true
  | _ => false

def endsUnindentedItem : Token → Bool
  | .blockEntry | .key | .value | .blockEnd => true
  | _ => false

def endsBlockPart : Token → Bool
  | .key | .value | .blockEnd => true
  | _ => false

def endsFlowKey : Token → Bool
  | .value | .flowEntry | .flowMappingEnd => true
  | _ => false

def endsFlowValue : Token → Bool
  | .flowEntry | .flowMappingEnd => true
  | _ => false

def endsPairKey : Token → Bool
  | .value | .flowEntry | .flowSequenceEnd => true
  | _ => false

def endsPairValue : Token → Bool
  | .flowEntry | .flowSequenceEnd => true
  | _ => false

/-! ## Nodes from tokens -/

/-- The tokens that are left of some others. -/
abbrev Rest (ts : List Token) := { left : List Token // left.length ≤ ts.length }

theorem length_le_cons {t : Token} {rest left : List Token} (h : left.length ≤ rest.length) :
    left.length ≤ (t :: rest).length :=
  Nat.le_succ_of_le h

mutual

/-- A node after the properties that were read already. -/
def node? (handles : Handles) (place : Place) (props : Properties String) (ts : List Token) :
    Option (Node String × Rest ts) :=
  match ts with
  | .alias name :: rest =>
    if props = .none then some (.alias name, ⟨rest, by simp⟩) else none
  | .anchor name :: rest =>
    if props.anchor = none then do
      let (node, ⟨left, h⟩) ← node? handles place { props with anchor := some name } rest
      return (node, ⟨left, length_le_cons h⟩)
    else none
  | .tag handle suffix :: rest =>
    if props.tag = none then do
      let tag ← fullTag? handles handle suffix
      let (node, ⟨left, h⟩) ← node? handles place { props with tag := some tag } rest
      return (node, ⟨left, length_le_cons h⟩)
    else none
  | .text s plain :: rest => some (.text props s plain, ⟨rest, by simp⟩)
  | .flowSequence :: rest => do
    let (items, ⟨left, h⟩) ← flowItems? handles rest
    return (.sequence props items, ⟨left, length_le_cons h⟩)
  | .flowMapping :: rest => do
    let (entries, ⟨left, h⟩) ← flowEntries? handles rest
    return (.mapping props entries, ⟨left, length_le_cons h⟩)
  | .blockSequence :: rest =>
    if place = .flow then (ofProperties? props).map (·, ⟨.blockSequence :: rest, by simp⟩)
    else do
      let (items, ⟨left, h⟩) ← blockItems? handles rest
      return (.sequence props items, ⟨left, length_le_cons h⟩)
  | .blockMapping :: rest =>
    if place = .flow then (ofProperties? props).map (·, ⟨.blockMapping :: rest, by simp⟩)
    else do
      let (entries, ⟨left, h⟩) ← blockEntries? handles rest
      return (.mapping props entries, ⟨left, length_le_cons h⟩)
  | .blockEntry :: rest =>
    if place = .blockEntry then do
      let (items, left) ← unindentedItems? handles (.blockEntry :: rest)
      return (.sequence props items, left)
    else (ofProperties? props).map (·, ⟨.blockEntry :: rest, by simp⟩)
  | ts => (ofProperties? props).map (·, ⟨ts, by simp⟩)
termination_by 4 * ts.length + 1

/-- A part of a collection, which is absent before certain tokens. -/
def part? (handles : Handles) (place : Place) (ends : Token → Bool) (ts : List Token) :
    Option (Node String × Rest ts) :=
  if ts.head?.any ends then some (absent, ⟨ts, by simp⟩) else node? handles place .none ts
termination_by 4 * ts.length + 2

/-- The value of an entry, after its key. -/
def valuePart? (handles : Handles) (place : Place) (ends : Token → Bool) (ts : List Token) :
    Option (Node String × Rest ts) :=
  match ts with
  | .value :: rest => do
    let (v, ⟨left, h⟩) ← part? handles place ends rest
    return (v, ⟨left, length_le_cons h⟩)
  | ts => some (absent, ⟨ts, by simp⟩)
termination_by 4 * ts.length

/-- The items of a block sequence, to its end. -/
def blockItems? (handles : Handles) (ts : List Token) : Option (List (Node String) × Rest ts) :=
  match ts with
  | .blockEntry :: rest => do
    let (item, ⟨left, h₁⟩) ← part? handles .block endsBlockItem rest
    let (items, ⟨left, h₂⟩) ← blockItems? handles left
    return (item :: items, ⟨left, length_le_cons (Nat.le_trans h₂ h₁)⟩)
  | .blockEnd :: rest => some ([], ⟨rest, by simp⟩)
  | _ => none
termination_by 4 * ts.length

/-- The items of a sequence that is not indented. It has no end of its own. -/
def unindentedItems? (handles : Handles) (ts : List Token) :
    Option (List (Node String) × Rest ts) :=
  match ts with
  | .blockEntry :: rest => do
    let (item, ⟨left, h₁⟩) ← part? handles .block endsUnindentedItem rest
    let (items, ⟨left, h₂⟩) ← unindentedItems? handles left
    return (item :: items, ⟨left, length_le_cons (Nat.le_trans h₂ h₁)⟩)
  | ts => some ([], ⟨ts, by simp⟩)
termination_by 4 * ts.length

/-- The entries of a block mapping, to its end. -/
def blockEntries? (handles : Handles) (ts : List Token) :
    Option (List (Node String × Node String) × Rest ts) :=
  match ts with
  | .key :: rest => do
    let (k, ⟨left, h₁⟩) ← part? handles .blockEntry endsBlockPart rest
    let (v, ⟨left, h₂⟩) ← valuePart? handles .blockEntry endsBlockPart left
    let (entries, ⟨left, h₃⟩) ← blockEntries? handles left
    return ((k, v) :: entries, ⟨left, length_le_cons (Nat.le_trans h₃ (Nat.le_trans h₂ h₁))⟩)
  | .blockEnd :: rest => some ([], ⟨rest, by simp⟩)
  | _ => none
termination_by 4 * ts.length

/-- The key of a mapping of one entry. Where it is absent, the token after it is passed over. -/
def pairKey? (handles : Handles) (ts : List Token) : Option (Node String × Rest ts) :=
  if ts.head?.any endsPairKey then some (absent, ⟨ts.tail, by simp⟩)
  else node? handles .flow .none ts
termination_by 4 * ts.length + 2

/-- An item of a flow sequence. One that begins with a key is a mapping of one entry. -/
def flowItem? (handles : Handles) (ts : List Token) : Option (Node String × Rest ts) :=
  match ts with
  | .key :: rest => do
    let (k, ⟨left, h₁⟩) ← pairKey? handles rest
    let (v, ⟨left, h₂⟩) ← valuePart? handles .flow endsPairValue left
    return (.mapping .none [(k, v)], ⟨left, length_le_cons (Nat.le_trans h₂ h₁)⟩)
  | ts => node? handles .flow .none ts
termination_by 4 * ts.length + 2

/-- The items of a flow sequence, to its end. A comma may stand before the end. -/
def flowItems? (handles : Handles) (ts : List Token) : Option (List (Node String) × Rest ts) :=
  match ts with
  | .flowSequenceEnd :: rest => some ([], ⟨rest, by simp⟩)
  | ts => do
    let (item, ⟨left, h₁⟩) ← flowItem? handles ts
    let (items, ⟨left, h₂⟩) ← moreFlowItems? handles left
    return (item :: items, ⟨left, Nat.le_trans h₂ h₁⟩)
termination_by 4 * ts.length + 3

/-- What follows an item of a flow sequence. -/
def moreFlowItems? (handles : Handles) (ts : List Token) :
    Option (List (Node String) × Rest ts) :=
  match ts with
  | .flowSequenceEnd :: rest => some ([], ⟨rest, by simp⟩)
  | .flowEntry :: rest => do
    let (items, ⟨left, h⟩) ← flowItems? handles rest
    return (items, ⟨left, length_le_cons h⟩)
  | _ => none
termination_by 4 * ts.length

/-- An entry of a flow mapping. What is not marked as a key is a key without a value. -/
def flowEntry? (handles : Handles) (ts : List Token) :
    Option ((Node String × Node String) × Rest ts) :=
  match ts with
  | .key :: rest => do
    let (k, ⟨left, h₁⟩) ← part? handles .flow endsFlowKey rest
    let (v, ⟨left, h₂⟩) ← valuePart? handles .flow endsFlowValue left
    return ((k, v), ⟨left, length_le_cons (Nat.le_trans h₂ h₁)⟩)
  | ts => do
    let (k, left) ← node? handles .flow .none ts
    return ((k, absent), left)
termination_by 4 * ts.length + 2

/-- The entries of a flow mapping, to its end. A comma may stand before the end. -/
def flowEntries? (handles : Handles) (ts : List Token) :
    Option (List (Node String × Node String) × Rest ts) :=
  match ts with
  | .flowMappingEnd :: rest => some ([], ⟨rest, by simp⟩)
  | ts => do
    let (entry, ⟨left, h₁⟩) ← flowEntry? handles ts
    let (entries, ⟨left, h₂⟩) ← moreFlowEntries? handles left
    return (entry :: entries, ⟨left, Nat.le_trans h₂ h₁⟩)
termination_by 4 * ts.length + 3

/-- What follows an entry of a flow mapping. -/
def moreFlowEntries? (handles : Handles) (ts : List Token) :
    Option (List (Node String × Node String) × Rest ts) :=
  match ts with
  | .flowMappingEnd :: rest => some ([], ⟨rest, by simp⟩)
  | .flowEntry :: rest => do
    let (entries, ⟨left, h⟩) ← flowEntries? handles rest
    return (entries, ⟨left, length_le_cons h⟩)
  | _ => none
termination_by 4 * ts.length

end

/-! ## Documents -/

/-- The handles that the directives before a document define, each once. The version is given at
most once and is 1.1 or 1.2. -/
def directives? (versioned : Bool) (handles : Handles) :
    List Token → Option (Handles × List Token)
  | .version major minor :: rest =>
    if !versioned && major == 1 && (minor == 1 || minor == 2) then directives? true handles rest
    else none
  | .tagHandle handle expansion :: rest =>
    if (handles.lookup handle).isSome then none
    else directives? versioned ((handle, expansion) :: handles) rest
  | ts => some (handles, ts)

/-- The tokens around the content of a document. -/
def isDocumentToken : Token → Bool
  | .version .. | .tagHandle .. | .documentStart | .documentEnd => true
  | _ => false

/-- A document, whose start is marked or left out. A marked one may be without content. -/
def document? (ts : List Token) : Option (Node String × List Token) :=
  match ts with
  | .version .. :: _ | .tagHandle .. :: _ | .documentStart :: _ => do
    match ← directives? false [] ts with
    | (handles, .documentStart :: rest) =>
      if rest.head?.all isDocumentToken then some (absent, rest)
      else (node? handles .block .none rest).map fun (node, left) => (node, left.val)
    | _ => none
  | _ => (node? [] .block .none ts).map fun (node, left) => (node, left.val)

/-- Whether a document ends before these tokens, and none follows. -/
def endsStream : List Token → Bool
  | [] => true
  | .documentEnd :: rest => endsStream rest
  | _ => false

/-- The only document of a token list; without any tokens it is absent. -/
def ofTokens? (ts : List Token) : Option (Node String) :=
  if ts.isEmpty then some absent
  else do
    let (root, left) ← document? ts
    if endsStream left then return root else none

end Node

end FeatureGate.Yaml
