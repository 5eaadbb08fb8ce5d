import FeatureGate.Yaml.Cursor

/-!
# Gaps in flowing text

Blanks and line breaks inside a plain or quoted text are held back until more text follows. Blanks
within a line stay; one line break becomes a space, and of several the first one is dropped.
-/

namespace FeatureGate.Yaml

/-- What lies between the text so far and the text to come. -/
inductive Gap where
  | none
  /-- Blanks within a line, last first. -/
  | blanks (reversed : List Char)
  /-- The first line break and those after it. -/
  | lines (first more : List Char)

namespace Gap

def isLines : Gap → Bool
  | lines .. => true
  | _ => false

def isNone : Gap → Bool
  | none => true
  | _ => false

/-- Blanks count only while no line has ended. -/
def addBlank (c : Char) : Gap → Gap
  | none => blanks [c]
  | blanks cs => blanks (c :: cs)
  | lines first more => lines first more

def addBreak (text : List Char) : Gap → Gap
  | lines first more => lines first (more ++ text)
  | _ => lines text []

/-- The text of a gap. -/
def text : Gap → List Char
  | none => []
  | blanks cs => cs.reverse
  | lines first more =>
    if first = ['\n'] then (if more = [] then [' '] else more) else first ++ more

/-- The text so far, last character first, with the gap closed. -/
def close (g : Gap) (reversed : List Char) : List Char := g.text.reverse ++ reversed

end Gap

end FeatureGate.Yaml
