import FeatureGate.Json.Token
import FeatureGate.Json.Render
import FeatureGate.Proofs.NumberText

/-!
# Unique decoding of compact text

The text of a value is never the beginning of the text of another value, whatever follows it: its
first character tells the type, a quoted text ends at its first quote that is not escaped, and a
number ends where a character follows that no number has. So a value can be told from its text.
-/

namespace FeatureGate.Json

/-! ## Quoted texts -/

/-- The three ways to write a character between quotes: a short escape, a numbered escape, or the
character itself. -/
theorem quotedChar_cases (c : Char) :
    (∃ e, shortEscape? e = some c ∧ quotedChar c = ['\\', e]) ∨
      (c.toNat < 32 ∧ quotedChar c = unicodeEscape c) ∨
      (32 ≤ c.toNat ∧ c ≠ '"' ∧ c ≠ '\\' ∧ quotedChar c = [c]) := by
  unfold quotedChar
  split_ifs with quote backslash newline return_ tab back form control
  · exact .inl ⟨'"', by rw [quote]; rfl, rfl⟩
  · exact .inl ⟨'\\', by rw [backslash]; rfl, rfl⟩
  · exact .inl ⟨'n', by rw [newline]; rfl, rfl⟩
  · exact .inl ⟨'r', by rw [return_]; rfl, rfl⟩
  · exact .inl ⟨'t', by rw [tab]; rfl, rfl⟩
  · exact .inl ⟨'b', by rw [back]; rfl, rfl⟩
  · exact .inl ⟨'f', by rw [form]; rfl, rfl⟩
  · exact .inr (.inl ⟨control, rfl⟩)
  · exact .inr (.inr ⟨Nat.le_of_not_lt control, quote, backslash, rfl⟩)

theorem digitChars_of_control : ∀ n < 32,
    hexNumber? ['0', '0', Nat.digitChar (n / 16), Nat.digitChar (n % 16)] = some n ∧
      (Nat.digitChar (n / 16) ≠ '"' ∧ Nat.digitChar (n / 16) ≠ '\\') ∧
      Nat.digitChar (n % 16) ≠ '"' ∧ Nat.digitChar (n % 16) ≠ '\\' := by
  decide

/-- The piece that the writing of a character is read as. -/
def pieceOf (c : Char) : Piece :=
  if quotedChar c = unicodeEscape c then .unit c.toNat else .char c

theorem pieces?_quotedChar (c : Char) (rest : List Char) :
    pieces? (quotedChar c ++ rest) = (pieces? rest).map (pieceOf c :: ·) := by
  rcases quotedChar_cases c with ⟨e, short, same⟩ | ⟨control, same⟩ | ⟨visible, -, backslash, same⟩
  · have piece : pieceOf c = .char c := by simp [pieceOf, same, unicodeEscape]
    have different : e ≠ 'u' := by
      rintro rfl
      cases short
    rw [piece, same, List.cons_append, List.cons_append, List.nil_append, pieces?]
    · cases pieces? rest <;> simp [short]
    · simp [different]
  · have piece : pieceOf c = .unit c.toNat := if_pos same
    simp only [piece, same, unicodeEscape, List.cons_append, List.nil_append, pieces?,
      (digitChars_of_control _ control).1]
    cases pieces? rest <;> rfl
  · have piece : pieceOf c = .char c := by simp [pieceOf, same, unicodeEscape]
    rw [piece, same, List.singleton_append, pieces?]
    · rw [if_neg (Nat.not_lt_of_le visible)]
    · simp [backslash]
    · simp [backslash]

theorem charsOfPieces?_unit {n : Nat} (small : n < 32) (ps : List Piece) :
    charsOfPieces? (.unit n :: ps) = (charsOfPieces? ps).map (Char.ofNat n :: ·) := by
  have lead : isLeadSurrogate n = false := by
    simp only [isLeadSurrogate, Bool.and_eq_false_iff, decide_eq_false_iff_not]
    omega
  have trail : isTrailSurrogate n = false := by
    simp only [isTrailSurrogate, Bool.and_eq_false_iff, decide_eq_false_iff_not]
    omega
  match ps with
  | [] => simp [charsOfPieces?, lead, trail]
  | .char c :: ps => simp [charsOfPieces?, lead, trail]
  | .unit m :: ps => simp [charsOfPieces?, lead, trail]

theorem charsOfPieces?_pieceOf (c : Char) (ps : List Piece) :
    charsOfPieces? (pieceOf c :: ps) = (charsOfPieces? ps).map (c :: ·) := by
  unfold pieceOf
  split
  · rename_i numbered
    have control : c.toNat < 32 := by
      rcases quotedChar_cases c with ⟨e, -, same⟩ | ⟨control, -⟩ | ⟨-, -, -, same⟩
      · rw [same] at numbered
        cases numbered
      · exact control
      · rw [same] at numbered
        cases numbered
    rw [charsOfPieces?_unit control, Char.ofNat_toNat]
  · rw [charsOfPieces?]

theorem splitQuoted_ordinary {c : Char} (quote : c ≠ '"') (backslash : c ≠ '\\')
    (rest : List Char) :
    splitQuoted (c :: rest) = (splitQuoted rest).map fun p => (c :: p.1, p.2) := by
  rw [splitQuoted]
  · simp [quote]
  · simp [backslash]

theorem splitQuoted_quotedChar (c : Char) (rest : List Char) :
    splitQuoted (quotedChar c ++ rest) =
      (splitQuoted rest).map fun p => (quotedChar c ++ p.1, p.2) := by
  rcases quotedChar_cases c with ⟨e, -, same⟩ | ⟨control, same⟩ | ⟨-, quote, backslash, same⟩
  · rw [same]
    rfl
  · obtain ⟨-, high, low⟩ := digitChars_of_control _ control
    simp only [same, unicodeEscape, List.cons_append, List.nil_append, splitQuoted]
    rw [splitQuoted_ordinary (by decide) (by decide), splitQuoted_ordinary (by decide) (by decide),
      splitQuoted_ordinary high.1 high.2, splitQuoted_ordinary low.1 low.2]
    cases splitQuoted rest <;> rfl
  · rw [same]
    exact splitQuoted_ordinary quote backslash rest

/-- A text between quotes is split off whole, whatever follows it, and reads back as it was. -/
theorem quoted_reads_back (cs rest : List Char) :
    splitQuoted (cs.flatMap quotedChar ++ '"' :: rest) = some (cs.flatMap quotedChar, rest) ∧
      (pieces? (cs.flatMap quotedChar)).bind charsOfPieces? = some cs := by
  induction cs with
  | nil => exact ⟨rfl, rfl⟩
  | cons c cs ih =>
    obtain ⟨split, read⟩ := ih
    obtain ⟨ps, pieces, chars⟩ := Option.bind_eq_some_iff.mp read
    constructor
    · rw [List.flatMap_cons, List.append_assoc, splitQuoted_quotedChar, split]
      rfl
    · rw [List.flatMap_cons, pieces?_quotedChar, pieces, Option.map_some, Option.bind_some,
        charsOfPieces?_pieceOf, chars, Option.map_some]

theorem quotedChars_append_inj {k l : String} {r s : List Char}
    (h : quotedChars k ++ r = quotedChars l ++ s) : k = l ∧ r = s := by
  obtain ⟨splitK, readK⟩ := quoted_reads_back k.toList r
  obtain ⟨splitL, readL⟩ := quoted_reads_back l.toList s
  have same : k.toList.flatMap quotedChar ++ '"' :: r =
      l.toList.flatMap quotedChar ++ '"' :: s := by
    simpa [quotedChars] using h
  rw [same, splitL, Option.some.injEq, Prod.mk.injEq] at splitK
  obtain ⟨body, rest⟩ := splitK
  rw [body, readK, Option.some.injEq] at readL
  exact ⟨String.toList_inj.mp readL, rest.symm⟩

/-! ## Numbers -/

theorem Number.chars_append_inj {m n : Number} {r s : List Char}
    (hr : BeginsOutside isNumeric r) (hs : BeginsOutside isNumeric s)
    (h : m.chars ++ r = n.chars ++ s) : m = n ∧ r = s := by
  obtain ⟨numberM, restM⟩ := span_append m.isNumeric_chars hr
  obtain ⟨numberN, restN⟩ := span_append n.isNumeric_chars hs
  rw [h] at numberM restM
  exact ⟨chars_injective (numberM.symm.trans numberN), restM.symm.trans restN⟩

/-! ## Values -/

/-- The type of a value whose text begins with a character, if there is such a value. -/
def typeOfLead? (c : Char) : Option String :=
  if c = 'n' then some "null"
  else if c = 't' ∨ c = 'f' then some "bool"
  else if c = '"' then some "string"
  else if c = '[' then some "array"
  else if c = '\x7b' then some "object"
  else if isNumeric c then some "number"
  else none

theorem typeOfLead?_numeric {c : Char} (h : isNumeric c = true) :
    typeOfLead? c = some "number" := by
  unfold typeOfLead?
  split_ifs with null bool string array object
  · subst null
    cases h
  · rcases bool with rfl | rfl <;> cases h
  · subst string
    cases h
  · subst array
    cases h
  · subst object
    cases h
  · rfl

theorem lead_chars (v : Json) :
    ∃ c rest, v.chars = c :: rest ∧ typeOfLead? c = some v.typeName := by
  cases v with
  | null => exact ⟨_, _, rfl, rfl⟩
  | bool b => cases b <;> exact ⟨_, _, rfl, rfl⟩
  | string s => exact ⟨_, _, rfl, rfl⟩
  | array items => cases items <;> exact ⟨_, _, rfl, rfl⟩
  | object members => cases members <;> exact ⟨_, _, rfl, rfl⟩
  | number n =>
    obtain ⟨c, rest, text⟩ := List.exists_cons_of_ne_nil n.chars_ne_nil
    have numeric : isNumeric c = true := n.isNumeric_chars c (text ▸ List.mem_cons_self)
    exact ⟨c, rest, text, typeOfLead?_numeric numeric⟩

theorem chars_append_ne_bracket (v : Json) (r s : List Char) : v.chars ++ r ≠ ']' :: s := by
  intro h
  obtain ⟨c, _, text, lead⟩ := v.lead_chars
  rw [text, List.cons_append] at h
  rw [List.head_eq_of_cons_eq h] at lead
  cases lead

theorem typeName_eq_of_chars {v w : Json} {r s : List Char} (h : v.chars ++ r = w.chars ++ s) :
    v.typeName = w.typeName := by
  obtain ⟨c, _, textV, leadV⟩ := v.lead_chars
  obtain ⟨d, _, textW, leadW⟩ := w.lead_chars
  rw [textV, textW, List.cons_append, List.cons_append] at h
  rw [List.head_eq_of_cons_eq h, leadW] at leadV
  exact (Option.some.inj leadV).symm

theorem beginsOutside_itemChars (xs : List Json) (r : List Char) :
    BeginsOutside isNumeric (itemChars xs ++ r) := by
  cases xs <;> (rintro c ⟨⟩; rfl)

theorem beginsOutside_memberChars (ms : List (String × Json)) (r : List Char) :
    BeginsOutside isNumeric (memberChars ms ++ r) := by
  cases ms <;> (rintro c ⟨⟩; rfl)

/-- Whether a value and what follows it can be told from the text of both, provided that no number
runs on. -/
def Delimited (v : Json) : Prop :=
  ∀ (w : Json) (r s : List Char), BeginsOutside isNumeric r → BeginsOutside isNumeric s →
    v.chars ++ r = w.chars ++ s → v = w ∧ r = s

theorem itemChars_append_inj {xs : List Json} (each : ∀ x ∈ xs, x.Delimited) {ys : List Json}
    {r s : List Char} (h : itemChars xs ++ r = itemChars ys ++ s) : xs = ys ∧ r = s := by
  induction xs generalizing ys with
  | nil =>
    cases ys with
    | nil => exact ⟨rfl, List.append_cancel_left h⟩
    | cons y ys => exact absurd (List.head_eq_of_cons_eq h) (by decide)
  | cons x xs ih =>
    cases ys with
    | nil => exact absurd (List.head_eq_of_cons_eq h) (by decide)
    | cons y ys =>
      simp only [itemChars, List.cons_append, List.append_assoc, List.cons.injEq, true_and] at h
      obtain ⟨rfl, items⟩ := each x List.mem_cons_self y _ _ (beginsOutside_itemChars xs r)
        (beginsOutside_itemChars ys s) h
      obtain ⟨rfl, rest⟩ := ih (fun x hx => each x (List.mem_cons_of_mem _ hx)) items
      exact ⟨rfl, rest⟩

/-- A member, with the rest of its object. -/
theorem member_append_inj {k l : String} {x y : Json} (hx : x.Delimited)
    {xs ys : List (String × Json)} {r s : List Char}
    (h : quotedChars k ++ ':' :: (chars x ++ (memberChars xs ++ r)) =
      quotedChars l ++ ':' :: (chars y ++ (memberChars ys ++ s))) :
    k = l ∧ x = y ∧ memberChars xs ++ r = memberChars ys ++ s := by
  obtain ⟨key, value⟩ := quotedChars_append_inj h
  obtain ⟨same, members⟩ := hx y _ _ (beginsOutside_memberChars xs r)
    (beginsOutside_memberChars ys s) (List.tail_eq_of_cons_eq value)
  exact ⟨key, same, members⟩

theorem memberChars_append_inj {xs : List (String × Json)} (each : ∀ m ∈ xs, m.2.Delimited)
    {ys : List (String × Json)} {r s : List Char}
    (h : memberChars xs ++ r = memberChars ys ++ s) : xs = ys ∧ r = s := by
  induction xs generalizing ys with
  | nil =>
    cases ys with
    | nil => exact ⟨rfl, List.append_cancel_left h⟩
    | cons y ys => exact absurd (List.head_eq_of_cons_eq h) (by decide)
  | cons m xs ih =>
    cases ys with
    | nil => exact absurd (List.head_eq_of_cons_eq h) (by decide)
    | cons n ys =>
      simp only [memberChars, List.cons_append, List.append_assoc, List.cons.injEq, true_and] at h
      obtain ⟨key, value, members⟩ := member_append_inj (each m List.mem_cons_self) h
      obtain ⟨rfl, rest⟩ := ih (fun m hm => each m (List.mem_cons_of_mem _ hm)) members
      exact ⟨by rw [Prod.ext key value], rest⟩

theorem delimited_array {xs : List Json} (each : ∀ x ∈ xs, x.Delimited) :
    (Json.array xs).Delimited := by
  intro w r s hr hs h
  cases w with
  | array ys =>
    cases xs with
    | nil =>
      cases ys with
      | nil => exact ⟨rfl, List.append_cancel_left h⟩
      | cons y ys =>
        simp only [chars, List.cons_append, List.append_assoc, List.cons.injEq, true_and] at h
        exact absurd h.symm (chars_append_ne_bracket y _ _)
    | cons x xs =>
      cases ys with
      | nil =>
        simp only [chars, List.cons_append, List.append_assoc, List.cons.injEq, true_and] at h
        exact absurd h (chars_append_ne_bracket x _ _)
      | cons y ys =>
        have items : itemChars (x :: xs) ++ r = itemChars (y :: ys) ++ s := by
          simpa only [chars, itemChars, List.cons_append, List.append_assoc, List.cons.injEq,
            true_and] using h
        obtain ⟨same, rest⟩ := itemChars_append_inj each items
        exact ⟨congrArg Json.array same, rest⟩
  | _ => exact absurd (typeName_eq_of_chars h) (by simp [typeName])

theorem delimited_object {xs : List (String × Json)} (each : ∀ m ∈ xs, m.2.Delimited) :
    (Json.object xs).Delimited := by
  intro w r s hr hs h
  cases w with
  | object ys =>
    cases xs with
    | nil =>
      cases ys with
      | nil => exact ⟨rfl, List.append_cancel_left h⟩
      | cons n ys => exact absurd (List.tail_eq_of_cons_eq h) (by simp [quotedChars])
    | cons m xs =>
      cases ys with
      | nil => exact absurd (List.tail_eq_of_cons_eq h) (by simp [quotedChars])
      | cons n ys =>
        have members : memberChars (m :: xs) ++ r = memberChars (n :: ys) ++ s := by
          simpa only [chars, memberChars, List.cons_append, List.append_assoc, List.cons.injEq,
            true_and] using h
        obtain ⟨same, rest⟩ := memberChars_append_inj each members
        exact ⟨congrArg Json.object same, rest⟩
  | _ => exact absurd (typeName_eq_of_chars h) (by simp [typeName])

theorem delimited (v : Json) : v.Delimited := by
  induction v using Json.induction with
  | null =>
    intro w r s _ _ h
    cases w with
    | null => exact ⟨rfl, List.append_cancel_left h⟩
    | _ => exact absurd (typeName_eq_of_chars h) (by simp [typeName])
  | bool a =>
    intro w r s _ _ h
    cases w with
    | bool b =>
      cases a <;> cases b
      · exact ⟨rfl, List.append_cancel_left h⟩
      · exact absurd (List.head_eq_of_cons_eq h) (by decide)
      · exact absurd (List.head_eq_of_cons_eq h) (by decide)
      · exact ⟨rfl, List.append_cancel_left h⟩
    | _ => exact absurd (typeName_eq_of_chars h) (by simp [typeName])
  | number m =>
    intro w r s hr hs h
    cases w with
    | number n =>
      obtain ⟨rfl, rest⟩ := Number.chars_append_inj hr hs h
      exact ⟨rfl, rest⟩
    | _ => exact absurd (typeName_eq_of_chars h) (by simp [typeName])
  | string a =>
    intro w r s _ _ h
    cases w with
    | string b =>
      obtain ⟨rfl, rest⟩ := quotedChars_append_inj h
      exact ⟨rfl, rest⟩
    | _ => exact absurd (typeName_eq_of_chars h) (by simp [typeName])
  | array xs each => exact delimited_array each
  | object ms each => exact delimited_object each

/-- A value can be told from its text. -/
theorem render_injective : Function.Injective render := by
  intro v w h
  have chars : v.chars ++ [] = w.chars ++ [] := by
    rw [List.append_nil, List.append_nil]
    exact String.ofList_inj.mp h
  exact (v.delimited w [] [] nofun nofun chars).1

end FeatureGate.Json
