/-!
# Places in a document

A cursor is the text that is still to be read, with the place where it begins. Columns count
characters from the last line break, offsets count bytes from the start of the text.
-/

namespace FeatureGate.Yaml

/-! ## Classes of characters -/

/-- The characters that end a line: line feed, carriage return, next line, and the separators of
lines and paragraphs. -/
def isBreak (c : Char) : Bool :=
  c == '\n' || c == '\r' || c == '\u0085' || c == '\u2028' || c == '\u2029'

def isSpaceOrTab (c : Char) : Bool := c == ' ' || c == '\t'

/-- The characters of names: letters, digits, underscores and hyphens. -/
def isNameChar (c : Char) : Bool := c.isAlphanum || c == '_' || c == '-'

def byteOrderMark : Char := '\ufeff'

/-- The characters that a document may hold. -/
def isDocumentChar (c : Char) : Bool :=
  let n := c.toNat
  n == 0x9 || n == 0xa || n == 0xd || (0x20 ≤ n && n ≤ 0x7e) || n == 0x85 ||
    (0xa0 ≤ n && n ≤ 0xfffd) || 0x10000 ≤ n

/-- Whether a text is at its end or at a line break. -/
def atBreak : List Char → Bool
  | [] => true
  | c :: _ => isBreak c

/-- Whether a text is at its end, at a line break, or at a blank. -/
def atBlank : List Char → Bool
  | [] => true
  | c :: _ => isBreak c || isSpaceOrTab c

/-- The marks that begin and end a document stand at the start of a line, before a blank. -/
def atDocumentMark : List Char → Bool
  | '-' :: '-' :: '-' :: rest => atBlank rest
  | '.' :: '.' :: '.' :: rest => atBlank rest
  | _ => false

/-- What a line break is worth in a text: most are a line feed, the separators of lines and
paragraphs stay what they are. -/
def breakText (c : Char) : List Char :=
  if c == '\u2028' || c == '\u2029' then [c] else ['\n']

/-! ## Places -/

structure Mark where
  offset : Nat
  line : Nat
  column : Nat

namespace Mark

def start : Mark := ⟨0, 0, 0⟩

/-- The place after a character of the same line. -/
def after (m : Mark) (c : Char) : Mark := ⟨m.offset + c.utf8Size, m.line, m.column + 1⟩

/-- The place after some characters of the same line. -/
def afterAll (m : Mark) (cs : List Char) : Mark := cs.foldl after m

/-- The place after a line break of one character. -/
def newLine (m : Mark) (c : Char) : Mark := ⟨m.offset + c.utf8Size, m.line + 1, 0⟩

/-- The place after a line break of a carriage return and a line feed. -/
def newLineOfTwo (m : Mark) : Mark := ⟨m.offset + 2, m.line + 1, 0⟩

end Mark

structure Cursor where
  rest : List Char
  mark : Mark

namespace Cursor

def ofText (text : List Char) : Cursor := ⟨text, .start⟩

/-- Passes over some characters of the same line. -/
def skip (c : Cursor) (n : Nat) : Cursor := ⟨c.rest.drop n, c.mark.afterAll (c.rest.take n)⟩

/-- Passes over the characters of the same line that are of a class. -/
def skipWhile (p : Char → Bool) (c : Cursor) : Cursor := c.skip (c.rest.takeWhile p).length

def skipSpacesAndTabs (c : Cursor) : Cursor := c.skipWhile isSpaceOrTab

/-- Passes over a comment, up to the end of the line. -/
def skipComment (c : Cursor) : Cursor :=
  if c.rest.head? = some '#' then c.skipWhile fun x => !isBreak x else c

/-- Passes over one line break, if there is one. -/
def skipBreak (c : Cursor) : Cursor :=
  match c.rest with
  | '\r' :: '\n' :: rest => ⟨rest, c.mark.newLineOfTwo⟩
  | x :: rest => if isBreak x then ⟨rest, c.mark.newLine x⟩ else c
  | [] => c

theorem length_skipBreak (c : Cursor) : c.skipBreak.rest.length ≤ c.rest.length := by
  unfold skipBreak
  split
  · rename_i h
    simp only [h, List.length_cons]
    omega
  · rename_i h
    split <;> simp [h]
  · exact Nat.le_refl _

/-- Passes over blanks, a comment and the line break at the end of a line; nothing else may be
there. -/
def skipLineEnd? (c : Cursor) : Option Cursor :=
  let c := c.skipSpacesAndTabs.skipComment
  if atBreak c.rest then some c.skipBreak else none

end Cursor

end FeatureGate.Yaml
