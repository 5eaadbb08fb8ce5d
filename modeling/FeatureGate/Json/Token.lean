import FeatureGate.Json.Basic
import FeatureGate.Binary64.Scaling

/-!
# JSON tokens

A text is cut into tokens before anything is known about their order. A numeral outside the range of
numbers, or a quoted text with an unpaired surrogate, is a token without a value: it is well formed,
but no value can be read from it.
-/

namespace FeatureGate.Json

inductive Token where
  | openBracket
  | closeBracket
  | openBrace
  | closeBrace
  | comma
  | colon
  | null
  | bool (b : Bool)
  | number (n : Option Number)
  | text (s : Option String)

/-- The token of a single mark. -/
def markToken? : Char → Option Token
  | '[' => some .openBracket
  | ']' => some .closeBracket
  | '\x7b' => some .openBrace
  | '\x7d' => some .closeBrace
  | ',' => some .comma
  | ':' => some .colon
  | _ => none

def isBlank (c : Char) : Bool := c == ' ' || c == '\t' || c == '\n' || c == '\r'

/-- The characters that words and numerals are made of. -/
def isWordChar (c : Char) : Bool :=
  c.isAlphanum || c == '-' || c == '+' || c == '.'

/-- The number of a numeral. An integer of 64 bits is exact; anything else, a minus zero too, is a
binary64 number, and is found by scaling. -/
def numberOf (n : Numeral) (integral negative : Bool) : Option Number :=
  let whole : Int := if negative then -(n.digits : Int) else n.digits
  let exact := if integral && !(negative && n.digits == 0) then Number.ofInt? whole else none
  exact <|> (n.scaled? negative).map .float

/-- The number of a numeral with no sign but a minus and no needless zero in front; `none` when the
text is no such numeral. -/
def readNumber? (text : List Char) : Option (Option Number) :=
  let negative := text.head? = some '-'
  let rest := if negative then text.tail else text
  match Numeral.read? rest with
  | none => none
  | some n =>
    let wholeOk := n.whole ≠ [] ∧ (n.whole.head? = some '0' → n.whole.length = 1)
    let pointOk := rest.contains '.' → n.fraction ≠ []
    let integral := n.whole.length == rest.length
    if wholeOk ∧ pointOk then some (numberOf n integral negative) else none

def wordToken? (text : List Char) : Option Token :=
  if text = ['n', 'u', 'l', 'l'] then some .null
  else if text = ['t', 'r', 'u', 'e'] then some (.bool true)
  else if text = ['f', 'a', 'l', 's', 'e'] then some (.bool false)
  else (readNumber? text).map .number

/-- A part of a quoted text: a character, or a 16-bit unit given by its number. -/
inductive Piece where
  | char (c : Char)
  | unit (n : Nat)

def hexValue? (c : Char) : Option Nat :=
  if '0' ≤ c ∧ c ≤ '9' then some (c.toNat - '0'.toNat)
  else if 'a' ≤ c ∧ c ≤ 'f' then some (c.toNat - 'a'.toNat + 10)
  else if 'A' ≤ c ∧ c ≤ 'F' then some (c.toNat - 'A'.toNat + 10)
  else none

/-- The number written with these hexadecimal digits. -/
def hexNumber? (digits : List Char) : Option Nat :=
  digits.foldlM (fun n c => (hexValue? c).map (16 * n + ·)) 0

/-- The character of an escape of one letter. -/
def shortEscape? : Char → Option Char
  | '"' => some '"'
  | '\\' => some '\\'
  | '/' => some '/'
  | 'b' => some '\x08'
  | 'f' => some '\x0c'
  | 'n' => some '\n'
  | 'r' => some '\r'
  | 't' => some '\t'
  | _ => none

/-- The pieces between two quotes. Control characters must be escaped. -/
def pieces? : List Char → Option (List Piece)
  | [] => some []
  | '\\' :: 'u' :: a :: b :: c :: d :: rest => do
    let n ← hexNumber? [a, b, c, d]
    let ps ← pieces? rest
    return .unit n :: ps
  | '\\' :: c :: rest => do
    let e ← shortEscape? c
    let ps ← pieces? rest
    return .char e :: ps
  | c :: rest =>
    if c.toNat < 32 then none else (pieces? rest).map (.char c :: ·)

def isLeadSurrogate (n : Nat) : Bool := 0xD800 ≤ n && n < 0xDC00

def isTrailSurrogate (n : Nat) : Bool := 0xDC00 ≤ n && n < 0xE000

/-- The characters that pieces stand for; `none` when a surrogate has no partner. -/
def charsOfPieces? : List Piece → Option (List Char)
  | [] => some []
  | .char c :: rest => (charsOfPieces? rest).map (c :: ·)
  | .unit hi :: .unit lo :: rest =>
    if isLeadSurrogate hi then
      if isTrailSurrogate lo then
        (charsOfPieces? rest).map
          (Char.ofNat (0x10000 + (hi - 0xD800) * 0x400 + (lo - 0xDC00)) :: ·)
      else none
    else if isTrailSurrogate hi then none
    else (charsOfPieces? (.unit lo :: rest)).map (Char.ofNat hi :: ·)
  | .unit n :: rest =>
    if isLeadSurrogate n || isTrailSurrogate n then none
    else (charsOfPieces? rest).map (Char.ofNat n :: ·)

/-- The text up to the closing quote, and what follows the quote. -/
def splitQuoted : List Char → Option (List Char × List Char)
  | [] => none
  | '"' :: rest => some ([], rest)
  | '\\' :: c :: rest => (splitQuoted rest).map fun (body, after) => ('\\' :: c :: body, after)
  | c :: rest => (splitQuoted rest).map fun (body, after) => (c :: body, after)

theorem splitQuoted_length {cs body after : List Char} (h : splitQuoted cs = some (body, after)) :
    after.length < cs.length := by
  fun_induction splitQuoted cs generalizing body after with
  | case1 => simp at h
  | case2 rest => simp_all
  | case3 c rest ih =>
    obtain ⟨⟨b, a⟩, hs, he⟩ := Option.map_eq_some_iff.mp h
    have := ih hs
    simp only [Prod.mk.injEq] at he
    simp only [List.length_cons, ← he.2]
    omega
  | case4 c rest _ _ ih =>
    obtain ⟨⟨b, a⟩, hs, he⟩ := Option.map_eq_some_iff.mp h
    have := ih hs
    simp only [Prod.mk.injEq] at he
    simp only [List.length_cons, ← he.2]
    omega

theorem length_dropWhile_le (p : Char → Bool) (cs : List Char) :
    (cs.dropWhile p).length ≤ cs.length :=
  (List.dropWhile_suffix p).length_le

/-- All tokens of a text. -/
def Token.scan? (cs : List Char) : Option (List Token) :=
  match cs with
  | [] => some []
  | c :: rest =>
    if isBlank c then scan? rest
    else if c = '"' then
      match h : splitQuoted rest with
      | none => none
      | some (body, after) => do
        have := splitQuoted_length h
        let ps ← pieces? body
        let ts ← scan? after
        return .text ((charsOfPieces? ps).map String.ofList) :: ts
    else match markToken? c with
      | some t => (scan? rest).map (t :: ·)
      | none =>
        if isWordChar c then do
          have := length_dropWhile_le isWordChar rest
          let t ← wordToken? (c :: rest.takeWhile isWordChar)
          let ts ← scan? (rest.dropWhile isWordChar)
          return t :: ts
        else none
termination_by cs.length
decreasing_by all_goals (simp_wf <;> omega)

end FeatureGate.Json
