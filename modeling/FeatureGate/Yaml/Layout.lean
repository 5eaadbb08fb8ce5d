import FeatureGate.Yaml.Token

/-!
# The layout of a document

Reads the tokens of a document. Block collections begin where the indentation grows and end where it
shrinks. A text turns out to be a key only when a colon follows, so every place where a key may begin
is remembered, one for each level of brackets; the token of the key is then put in before it. A key
that is not quoted by a question mark must lie in one line and within 1024 bytes.
-/

namespace FeatureGate.Yaml

/-- A place where a key may have begun. -/
structure KeyPlace where
  /-- How many tokens come before it. -/
  token : Nat
  mark : Mark
  /-- Whether only a key may stand there. -/
  required : Bool

/-- The tokens so far, and what is known about the place that is reached. -/
structure Layout where
  tokens : Array Token
  /-- The indentation of the innermost block collection; `-1` outside of all. -/
  indent : Int
  /-- The indentations of the surrounding block collections, innermost first. -/
  outer : List Int
  /-- The place of a possible key outside all brackets or inside the innermost ones. -/
  keyPlace : Option KeyPlace
  /-- The places of possible keys outside the innermost brackets, one for each level. -/
  outerKeyPlaces : List (Option KeyPlace)
  /-- Whether a key may begin here. -/
  keyAllowed : Bool

namespace Layout

def start : Layout := ⟨#[], -1, [], none, [], true⟩

/-- Whether the place is inside brackets. -/
def inFlow (l : Layout) : Bool := !l.outerKeyPlaces.isEmpty

def push (l : Layout) (t : Token) : Layout := { l with tokens := l.tokens.push t }

/-- Puts a token in before some that are already there. -/
def insertAt (l : Layout) (i : Nat) (t : Token) : Layout :=
  if h : i ≤ l.tokens.size then { l with tokens := l.tokens.insertIdx i t h } else l.push t

def allowKey (l : Layout) (allowed : Bool) : Layout := { l with keyAllowed := allowed }

/-! ## Possible keys -/

/-- Whether a key that begins at a place can no longer end here. -/
def KeyPlace.isStale (p : KeyPlace) (m : Mark) : Bool :=
  p.mark.line < m.line || p.mark.offset + 1024 < m.offset

/-- Forgets a place if it is stale; a key that is required there is then missing. -/
def forgetIfStale (m : Mark) : Option KeyPlace → Option (Option KeyPlace)
  | none => some none
  | some p =>
    if KeyPlace.isStale p m then (if p.required then none else some none) else some (some p)

def forgetStale (l : Layout) (m : Mark) : Option Layout := do
  let place ← forgetIfStale m l.keyPlace
  let places ← l.outerKeyPlaces.mapM (forgetIfStale m)
  return { l with keyPlace := place, outerKeyPlaces := places }

/-- Gives up the possible key of this level; a required one is then missing. -/
def dropKey (l : Layout) : Option Layout :=
  if l.keyPlace.any (·.required) then none else some { l with keyPlace := none }

/-- Remembers that a key may begin here. At the indentation of the collection only a key may. -/
def saveKey (l : Layout) (m : Mark) : Option Layout :=
  if l.keyAllowed then
    l.dropKey.map fun l =>
      { l with keyPlace := some ⟨l.tokens.size, m, !l.inFlow && l.indent == m.column⟩ }
  else some l

/-! ## Indentation -/

/-- Ends the block collections that are indented deeper than a column. -/
def endBlocks (column indent : Int) (outer : List Int) (tokens : Array Token) :
    Int × List Int × Array Token :=
  if indent ≤ column then (indent, outer, tokens)
  else
    match outer with
    | [] => (-1, [], tokens.push .blockEnd)
    | i :: rest => endBlocks column i rest (tokens.push .blockEnd)

/-- Ends block collections; inside brackets indentation does not count. -/
def closeTo (l : Layout) (column : Int) : Layout :=
  if l.inFlow then l
  else
    let (indent, outer, tokens) := endBlocks column l.indent l.outer l.tokens
    { l with indent := indent, outer := outer, tokens := tokens }

/-- Begins a block collection with a token at an index, if the column lies deeper than the innermost
one. -/
def openAt (l : Layout) (column : Nat) (i : Nat) (t : Token) : Layout :=
  if !l.inFlow && l.indent < column then
    { l.insertAt i t with indent := column, outer := l.indent :: l.outer }
  else l

/-- Begins a block collection here, where a collection must be allowed to begin. -/
def openHere? (l : Layout) (m : Mark) (t : Token) : Option Layout :=
  if l.inFlow then some l
  else if l.keyAllowed then some (l.openAt m.column l.tokens.size t)
  else none

/-! ## Tokens -/

/-- A token of one mark, after which a key may begin or not. -/
def mark (l : Layout) (c : Cursor) (t : Token) (keyAllowed : Bool) : Layout × Cursor :=
  ((l.allowKey keyAllowed).push t, c.skip 1)

/-- A mark that ends everything that is open outside brackets. -/
def outermost? (l : Layout) : Option Layout :=
  (l.closeTo (-1)).dropKey.map (·.allowKey false)

/-- An opening bracket. -/
def openFlow? (l : Layout) (c : Cursor) (t : Token) : Option (Layout × Cursor) := do
  let l ← l.saveKey c.mark
  let l := { l with keyPlace := none, outerKeyPlaces := l.keyPlace :: l.outerKeyPlaces }
  return l.mark c t true

/-- A closing bracket. -/
def closeFlow? (l : Layout) (c : Cursor) (t : Token) : Option (Layout × Cursor) := do
  let l ← l.dropKey
  let l := match l.outerKeyPlaces with
    | place :: places => { l with keyPlace := place, outerKeyPlaces := places }
    | [] => l
  return l.mark c t false

/-- The colon before a value. If a key may have begun on this level, it did. -/
def value? (l : Layout) (c : Cursor) : Option (Layout × Cursor) :=
  match l.keyPlace with
  | some p =>
    let l := (l.insertAt p.token .key).openAt p.mark.column p.token .blockMapping
    some ({ l with keyPlace := none }.mark c .value false)
  | none => (l.openHere? c.mark .blockMapping).map fun l => l.mark c .value !l.inFlow

/-- A text between quotes. -/
def quoted? (l : Layout) (c : Cursor) (single : Bool) : Option (Layout × Cursor) := do
  let l ← l.saveKey c.mark
  let (cs, after) ← quotedText single (c.skip 1).rest (c.skip 1).mark [] .none
  return ((l.allowKey false).push (.text (String.ofList cs) false), after)

/-- A plain text. After a line break it leaves a place where a key may begin. -/
def plain? (l : Layout) (c : Cursor) : Option (Layout × Cursor) := do
  let l ← l.saveKey c.mark
  let (cs, brokeLine, after) ← plainText l.inFlow (l.indent + 1).toNat c.rest c.mark [] .none
  return ((l.allowKey brokeLine).push (.text (String.ofList cs) true), after)

/-- A block text. -/
def block? (l : Layout) (c : Cursor) (literal : Bool) : Option (Layout × Cursor) := do
  let l ← l.dropKey
  let (header, c) ← BlockHeader.read? (c.skip 1)
  let indent := match header.increment with
    | some n => .known (l.indent.toNat + n)
    | none => .widest 0
  let least := max (l.indent + 1).toNat 1
  let (cs, after) ← blockText literal header.chomping least c.rest c.mark false indent .empty
  return ((l.allowKey true).push (.text (String.ofList cs) false), after)

/-- Something with a name or a tag, where a key may begin. -/
def named? (l : Layout) (c : Cursor) (read : Option (Token × Cursor)) :
    Option (Layout × Cursor) := do
  let l ← l.saveKey c.mark
  let (t, after) ← read
  return ((l.allowKey false).push t, after)

/-- The token that begins at a place which is neither blank nor the end. -/
def token? (l : Layout) (c : Cursor) : Option (Layout × Cursor) :=
  match c.rest with
  | [] => none
  | x :: rest =>
    let nameToken (make : String → Token) :=
      l.named? c ((Token.readName? c).map fun (s, after) => (make s, after))
    if c.mark.column == 0 && x == '%' then do
      let l ← l.outermost?
      let (t, after) ← Token.readDirective? c
      return (l.push t, after)
    else if c.mark.column == 0 && atDocumentMark c.rest then
      l.outermost?.map fun l =>
        (l.push (if x == '-' then .documentStart else .documentEnd), c.skip 3)
    else if x == '[' then l.openFlow? c .flowSequence
    else if x == '\x7b' then l.openFlow? c .flowMapping
    else if x == ']' then l.closeFlow? c .flowSequenceEnd
    else if x == '\x7d' then l.closeFlow? c .flowMappingEnd
    else if x == ',' then l.dropKey.map (·.mark c .flowEntry true)
    else if x == '-' && atBlank rest then do
      let l ← l.openHere? c.mark .blockSequence
      let l ← l.dropKey
      return l.mark c .blockEntry true
    else if x == '?' && (l.inFlow || atBlank rest) then do
      let l ← l.openHere? c.mark .blockMapping
      let l ← l.dropKey
      return l.mark c .key !l.inFlow
    else if x == ':' && (l.inFlow || atBlank rest) then l.value? c
    else if x == '*' then nameToken .alias
    else if x == '&' then nameToken .anchor
    else if x == '!' then l.named? c (Token.readTag? l.inFlow c)
    else if x == '|' && !l.inFlow then l.block? c true
    else if x == '>' && !l.inFlow then l.block? c false
    else if x == '\'' then l.quoted? c true
    else if x == '"' then l.quoted? c false
    else if startsPlain l.inFlow c.rest then l.plain? c
    else none

/-- Passes over blanks, comments and line breaks, and answers whether a key may begin after them.
Outside brackets a tab may not stand where a key may begin. -/
def skipBlanks (flow : Bool) : List Char → Mark → Bool → Bool → Cursor × Bool
  | [], m, _, keyAllowed => (⟨[], m⟩, keyAllowed)
  | '\r' :: '\n' :: rest, m, _, keyAllowed =>
    skipBlanks flow rest (m.newLineOfTwo) false (keyAllowed || !flow)
  | c :: rest, m, comment, keyAllowed =>
    if isBreak c then skipBlanks flow rest (m.newLine c) false (keyAllowed || !flow)
    else if comment || c == '#' then skipBlanks flow rest (m.after c) true keyAllowed
    else if c == ' ' || (c == '\t' && (flow || !keyAllowed)) ||
        (c == byteOrderMark && m.column == 0) then
      skipBlanks flow rest (m.after c) false keyAllowed
    else (⟨c :: rest, m⟩, keyAllowed)

/-- The tokens from a place on, read in at most `most` steps. -/
def tokensFrom (l : Layout) (c : Cursor) (most : Nat) : Option (Array Token) := do
  let (here, keyAllowed) := skipBlanks l.inFlow c.rest c.mark false l.keyAllowed
  let l ← (l.allowKey keyAllowed).forgetStale here.mark
  if here.rest.isEmpty then return (← (l.closeTo (-1)).dropKey).tokens
  else
    match most with
    | 0 => none
    | most + 1 =>
      let (l, after) ← (l.closeTo here.mark.column).token? here
      tokensFrom l after most

end Layout

/-- The tokens of a document that holds only characters that are allowed. Every step reads at least
one of them, so there are no more steps than characters. -/
def tokens? (text : String) : Option (List Token) :=
  let cs := text.toList
  if cs.all isDocumentChar then
    (Layout.start.tokensFrom (.ofText cs) cs.length).map Array.toList
  else none

end FeatureGate.Yaml
