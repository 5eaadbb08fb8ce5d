import FeatureGate.Yaml.Cursor

/-!
# Block texts

A block text is made of the lines that are indented deeper than its surroundings. Literal lines stay
as they are, folded ones are joined by spaces unless they begin with a blank, and the line breaks at
the end are kept, clipped to one, or stripped.
-/

namespace FeatureGate.Yaml

/-- What happens to the line breaks at the end of a block text. -/
inductive Chomping where
  | strip
  | clip
  | keep
deriving DecidableEq

/-- The first line of a block text: what it says about indentation and the last line breaks. -/
structure BlockHeader where
  chomping : Chomping
  /-- The indentation relative to the surroundings, if it is given. -/
  increment : Option Nat

def chomping? : Char → Option Chomping
  | '+' => some .keep
  | '-' => some .strip
  | _ => none

/-- An indentation is one digit, and not zero. -/
def increment? (c : Char) : Option Nat :=
  if c.isDigit && c != '0' then some (c.toNat - '0'.toNat) else none

/-- The header after the mark of the block text, in either order of its parts. -/
def BlockHeader.read? (c : Cursor) : Option (BlockHeader × Cursor) :=
  let read : Option (BlockHeader × Nat) :=
    match c.rest with
    | a :: b :: _ =>
      match chomping? a, increment? a with
      | some ch, _ => if b.isDigit then (increment? b).map fun n => (⟨ch, some n⟩, 2)
        else some (⟨ch, none⟩, 1)
      | none, some n => match chomping? b with
        | some ch => some (⟨ch, some n⟩, 2)
        | none => some (⟨.clip, some n⟩, 1)
      | none, none => if a == '0' then none else some (⟨.clip, none⟩, 0)
    | [a] =>
      match chomping? a, increment? a with
      | some ch, _ => some (⟨ch, none⟩, 1)
      | none, some n => some (⟨.clip, some n⟩, 1)
      | none, none => if a == '0' then none else some (⟨.clip, none⟩, 0)
    | [] => some (⟨.clip, none⟩, 0)
  read.bind fun (header, width) => ((c.skip width).skipLineEnd?).map fun c => (header, c)

/-- What has been read of a block text. -/
structure BlockText where
  /-- The text, last character first. -/
  reversed : List Char
  /-- The break at the end of the last line. -/
  lastBreak : List Char
  /-- The breaks of the empty lines after it. -/
  emptyLines : List Char
  /-- Whether the last line begins with a blank. -/
  blankFirst : Bool

namespace BlockText

def empty : BlockText := ⟨[], [], [], false⟩

/-- Begins a line with its first character. In a folded text the break before it becomes a space,
or disappears before empty lines, if neither line begins with a blank. -/
def beginLine (t : BlockText) (literal : Bool) (c : Char) : BlockText :=
  let blank := isSpaceOrTab c
  let folds := !literal && t.lastBreak == ['\n'] && !t.blankFirst && !blank
  let first := if folds then (if t.emptyLines = [] then [' '] else []) else t.lastBreak
  ⟨c :: ((first ++ t.emptyLines).reverse ++ t.reversed), [], [], blank⟩

def add (t : BlockText) (c : Char) : BlockText := { t with reversed := c :: t.reversed }

def endLine (t : BlockText) (text : List Char) : BlockText := { t with lastBreak := text }

def addEmptyLine (t : BlockText) (text : List Char) : BlockText :=
  { t with emptyLines := t.emptyLines ++ text }

def finish (t : BlockText) (chomping : Chomping) : List Char :=
  t.reversed.reverse ++
    match chomping with
    | .strip => []
    | .clip => t.lastBreak
    | .keep => t.lastBreak ++ t.emptyLines

end BlockText

/-- The indentation of a block text: what is given or found, and before that, the widest margin so
far. -/
inductive BlockIndent where
  | known (n : Nat)
  | widest (n : Nat)

/-- Whether more of the margin is to be passed over. -/
def BlockIndent.inMargin (i : BlockIndent) (column : Nat) : Bool :=
  match i with
  | .known n => column < n
  | .widest _ => true

def BlockIndent.widen (i : BlockIndent) (column : Nat) : BlockIndent :=
  match i with
  | .known n => .known n
  | .widest n => .widest (max n column)

/-- The indentation, once a line that is not empty is reached: at least that of the least deeper
line. -/
def BlockIndent.settle (i : BlockIndent) (column least : Nat) : Nat :=
  match i with
  | .known n => n
  | .widest n => max (max n column) least

/-- A block text from here on, given what has been read of it; `inside` says whether the place is
inside a line or in the margin before one. -/
def blockText (literal : Bool) (chomping : Chomping) (least : Nat) :
    List Char → Mark → Bool → BlockIndent → BlockText → Option (List Char × Cursor)
  | [], m, _, _, t => some (t.finish chomping, ⟨[], m⟩)
  | '\r' :: '\n' :: rest, m, inside, indent, t =>
    let t := if inside then t.endLine ['\n'] else t.addEmptyLine ['\n']
    blockText literal chomping least rest (m.newLineOfTwo) false (indent.widen m.column) t
  | c :: rest, m, inside, indent, t =>
    if isBreak c then
      let t := if inside then t.endLine (breakText c) else t.addEmptyLine (breakText c)
      let indent := if inside then indent else indent.widen m.column
      blockText literal chomping least rest (m.newLine c) false indent t
    else if inside then blockText literal chomping least rest (m.after c) true indent (t.add c)
    else if c == ' ' && indent.inMargin m.column then
      blockText literal chomping least rest (m.after c) false indent t
    else if c == '\t' && indent.inMargin m.column then none
    else
      let n := indent.settle m.column least
      if m.column == n then
        blockText literal chomping least rest (m.after c) true (.known n)
          (t.beginLine literal c)
      else some (t.finish chomping, ⟨c :: rest, m⟩)

end FeatureGate.Yaml
