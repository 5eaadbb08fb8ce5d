import FeatureGate.Json.Token
import FeatureGate.Yaml.Text.Gap

/-!
# Quoted texts

Between single quotes only the quote itself is written twice; between double quotes there are
escapes, and an escaped line break joins two lines without a space.
-/

namespace FeatureGate.Yaml

/-- The characters that an escape of one letter stands for. -/
def letterEscape? : Char → Option Char
  | '0' => some '\x00'
  | 'a' => some '\x07'
  | 'b' => some '\x08'
  | 't' | '\t' => some '\t'
  | 'n' => some '\n'
  | 'v' => some '\x0b'
  | 'f' => some '\x0c'
  | 'r' => some '\r'
  | 'e' => some '\x1b'
  | ' ' => some ' '
  | '"' => some '"'
  | '/' => some '/'
  | '\\' => some '\\'
  | 'N' => some '\u0085'
  | '_' => some '\u00a0'
  | 'L' => some '\u2028'
  | 'P' => some '\u2029'
  | _ => none

/-- How many hexadecimal digits follow the letter of a numbered escape. -/
def escapeDigits? : Char → Option Nat
  | 'x' => some 2
  | 'u' => some 4
  | 'U' => some 8
  | _ => none

/-- The character of a number; surrogates and numbers beyond the last character have none. -/
def charOfNumber? (n : Nat) : Option Char :=
  if n < 0xD800 ∨ (0xDFFF < n ∧ n ≤ 0x10FFFF) then some (Char.ofNat n) else none

/-- The character of an escape and how many characters it takes after the backslash. -/
def escape? : List Char → Option (Char × Nat)
  | [] => none
  | c :: rest =>
    match escapeDigits? c with
    | none => (letterEscape? c).map fun e => (e, 1)
    | some digits =>
      if rest.length < digits then none
      else ((Json.hexNumber? (rest.take digits)).bind charOfNumber?).map fun e => (e, digits + 1)

/-- What stands at a place inside quotes. -/
inductive QuotedItem where
  /-- The closing quote. -/
  | close
  /-- A character, and how many characters it is written with. -/
  | char (c : Char) (width : Nat)
  /-- A backslash before a line break. -/
  | joinedLines

/-- The item between single quotes that begins with this character. -/
def singleQuotedItem (c : Char) (rest : List Char) : QuotedItem :=
  if c == '\'' then (if rest.head? = some '\'' then .char '\'' 2 else .close) else .char c 1

/-- The item between double quotes that begins with this character. -/
def doubleQuotedItem? (c : Char) (rest : List Char) : Option QuotedItem :=
  if c == '"' then some .close
  else if c == '\\' then
    match rest with
    | b :: _ =>
      if isBreak b then some .joinedLines
      else (escape? rest).map fun (e, width) => .char e (width + 1)
    | [] => none
  else some (.char c 1)

/-- A quoted text from here on, given what has been read of it, and the place after the closing
quote. -/
def quotedText (single : Bool) (cs : List Char) (m : Mark) (reversed : List Char) (gap : Gap) :
    Option (List Char × Cursor) :=
  match cs with
  | [] => none
  | '\r' :: '\n' :: rest => quotedText single rest (m.newLineOfTwo) reversed (gap.addBreak ['\n'])
  | c :: rest =>
    if isBreak c then quotedText single rest (m.newLine c) reversed (gap.addBreak (breakText c))
    else if isSpaceOrTab c then quotedText single rest (m.after c) reversed (gap.addBlank c)
    else if m.column == 0 && atDocumentMark (c :: rest) then none
    else
      match (if single then some (singleQuotedItem c rest) else doubleQuotedItem? c rest) with
      | none => none
      | some .close => some ((gap.close reversed).reverse, ⟨rest, m.after c⟩)
      | some (.char e width) =>
        quotedText single (rest.drop (width - 1)) ((m.after c).afterAll (rest.take (width - 1)))
          (e :: gap.close reversed) .none
      | some .joinedLines =>
        let next := Cursor.skipBreak ⟨rest, m.after c⟩
        have := Cursor.length_skipBreak ⟨rest, m.after c⟩
        quotedText single next.rest next.mark (gap.close reversed) (.lines [] [])
termination_by cs.length
decreasing_by all_goals grind

end FeatureGate.Yaml
