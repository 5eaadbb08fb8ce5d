import FeatureGate.Yaml.Text.Gap

/-!
# Plain texts

A plain text has no quotes. It ends before a comment, before a colon or, inside brackets, before a
mark of structure; it may go on in lines that are indented far enough.
-/

namespace FeatureGate.Yaml

/-- The marks that end a plain text inside brackets. -/
def isFlowMark (c : Char) : Bool :=
  c == ',' || c == '[' || c == ']' || c == '\x7b' || c == '\x7d'

/-- Whether a plain text may begin here. -/
def startsPlain (flow : Bool) : List Char → Bool
  | [] => false
  | c :: rest =>
    if c == '-' then !(rest.head?.any isSpaceOrTab)
    else if c == '?' || c == ':' then !flow && !atBlank rest
    else !(isBreak c || isSpaceOrTab c ||
      [',', '[', ']', '\x7b', '\x7d', '#', '&', '*', '!', '|', '>', '\'', '"', '%', '@',
        '\x60'].contains c)

/-- Whether a plain text ends before this place within a line. -/
def endsPlain (flow : Bool) : List Char → Bool
  | [] => true
  | c :: rest => (c == ':' && atBlank rest) || (flow && isFlowMark c)

/-- Whether a plain text ends after a gap, before this place. -/
def endsPlainAfterGap (flow : Bool) (margin : Nat) (m : Mark) (rest : List Char) : Bool :=
  (!flow && m.column < margin) || (m.column == 0 && atDocumentMark rest) ||
    rest.head? == some '#'

/-- Inside brackets a colon may not touch a mark of structure or a question mark. -/
def misplacedColon (flow : Bool) : List Char → Bool
  | ':' :: c :: _ => flow && (isFlowMark c || c == '?')
  | _ => false

/-- A plain text from here on, given what has been read of it: the text, whether a line has ended
since its last character, and the place where it ends. -/
def plainText (flow : Bool) (margin : Nat) :
    List Char → Mark → List Char → Gap → Option (List Char × Bool × Cursor)
  | [], m, reversed, gap => some (reversed.reverse, gap.isLines, ⟨[], m⟩)
  | '\r' :: '\n' :: rest, m, reversed, gap =>
    plainText flow margin rest (m.newLineOfTwo) reversed (gap.addBreak ['\n'])
  | c :: rest, m, reversed, gap =>
    if isBreak c then
      plainText flow margin rest (m.newLine c) reversed (gap.addBreak (breakText c))
    else if isSpaceOrTab c then
      if c == '\t' && gap.isLines && m.column < margin then none
      else plainText flow margin rest (m.after c) reversed (gap.addBlank c)
    else if !gap.isNone && endsPlainAfterGap flow margin m (c :: rest) then
      some (reversed.reverse, gap.isLines, ⟨c :: rest, m⟩)
    else if misplacedColon flow (c :: rest) then none
    else if endsPlain flow (c :: rest) then
      some (reversed.reverse, gap.isLines, ⟨c :: rest, m⟩)
    else plainText flow margin rest (m.after c) (c :: gap.close reversed) .none

end FeatureGate.Yaml
