import FeatureGate.Json.Token
import FeatureGate.Json.Render
import FeatureGate.Proofs.Shortest

/-!
# Number texts

The text of a number reads back as a numeral that rounds to the number, so different numbers have
different texts. A binary64 number is never written like an integer, since its text has a point or
an exponent, and a zero keeps its sign.
-/

namespace FeatureGate

/-- Whether a text is empty or begins with a character outside a class. -/
def BeginsOutside (p : Char → Bool) (cs : List Char) : Prop := ∀ c, cs.head? = some c → p c = false

theorem beginsOutside_nil (p : Char → Bool) : BeginsOutside p [] := by
  intro c h
  cases h

theorem span_append {p : Char → Bool} {as rest : List Char} (inside : ∀ c ∈ as, p c = true)
    (outside : BeginsOutside p rest) :
    (as ++ rest).takeWhile p = as ∧ (as ++ rest).dropWhile p = rest := by
  rw [List.takeWhile_append_of_pos inside, List.dropWhile_append_of_pos inside]
  cases rest with
  | nil => exact ⟨List.append_nil as, rfl⟩
  | cons c rest =>
    have stop := outside c rfl
    simp [stop]

namespace Numeral

/-- The value of the numeral. -/
def value (n : Numeral) : ℚ := n.digits * 10 ^ (n.exponent - n.fraction.length)

/-- Whether all characters are decimal digits. -/
def Digits (cs : List Char) : Prop := ∀ c ∈ cs, c.isDigit = true

theorem digits_toDigits (n : Nat) : Digits (Nat.toDigits 10 n) :=
  fun _ => Nat.isDigit_of_mem_toDigits (by decide) (by decide)

theorem digits_zeros (n : Nat) : Digits (List.replicate n '0') := by
  intro c hc
  rw [(List.mem_replicate.mp hc).2]
  rfl

theorem Digits.append {as bs : List Char} (ha : Digits as) (hb : Digits bs) : Digits (as ++ bs) :=
  fun c hc => (List.mem_append.mp hc).elim (ha c) (hb c)

/-! ## Reading the parts -/

variable {whole fraction r : List Char}

theorem read?_whole (h : Digits whole) (nonempty : whole ≠ [])
    (ends : BeginsOutside Char.isDigit r) (noPoint : r.head? ≠ some '.') :
    read? (whole ++ r) = (exponent? r).map (⟨whole, [], ·⟩) := by
  have split : splitFraction r = (none, r) := by
    unfold splitFraction
    split
    · exact absurd rfl noPoint
    · rfl
  obtain ⟨before, after⟩ := span_append h ends
  simp only [read?, before, after, split, nonempty, false_and, if_false, Option.getD_none]

theorem read?_point (h : Digits whole) (nonempty : whole ≠ []) (hf : Digits fraction)
    (ends : BeginsOutside Char.isDigit r) :
    read? (whole ++ '.' :: (fraction ++ r)) =
      (exponent? r).map (⟨whole, fraction, ·⟩) := by
  have point : BeginsOutside Char.isDigit ('.' :: (fraction ++ r)) := by
    rintro c ⟨⟩
    rfl
  obtain ⟨before, after⟩ := span_append h point
  obtain ⟨inside, outside⟩ := span_append hf ends
  simp only [read?, before, after, splitFraction, inside, outside, nonempty, false_and, if_false,
    Option.getD_some]

theorem exponent?_signed (e : Int) :
    exponent? ('e' :: (if e < 0 then '-' else '+') :: Nat.toDigits 10 e.natAbs) = some e := by
  have digits : (Nat.toDigits 10 e.natAbs).all Char.isDigit = true :=
    List.all_eq_true.mpr (digits_toDigits _)
  by_cases negative : e < 0
  · have same : -(e.natAbs : Int) = e := by omega
    simp only [exponent?, negative, if_true, splitSign, digits, Nat.ofDigitChars_ten_toDigits, same,
      Nat.toDigits_ne_nil, ne_eq, not_false_eq_true, and_self, true_or]
  · have same : (e.natAbs : Int) = e := by omega
    simp only [exponent?, negative, if_true, if_false, splitSign, digits,
      Nat.ofDigitChars_ten_toDigits, same, Nat.toDigits_ne_nil, ne_eq, not_false_eq_true, and_self,
      true_or, Bool.false_eq_true]

/-- A text with a sign in front is no numeral without a sign. -/
theorem read?_minus (rest : List Char) : read? ('-' :: rest) = none := rfl

end Numeral

/-! ## Layouts -/

namespace NumberLayout

open Numeral

variable (layout : NumberLayout)

theorem digits_shifted (digits zeros : Nat) :
    Nat.ofDigitChars 10 (Nat.toDigits 10 digits ++ List.replicate zeros '0') 0 =
      digits * 10 ^ zeros := by
  rw [Nat.ofDigitChars_append, Nat.ofDigitChars_ten_toDigits, Nat.ofDigitChars_replicate_zero,
    Nat.mul_comm]

theorem read?_withPoint (digits places : Nat) :
    ∃ n, Numeral.read? (withPoint (Nat.toDigits 10 digits) places) = some n ∧
      n.value = digits * 10 ^ (-(places : Int)) := by
  unfold withPoint
  dsimp only
  generalize hp : List.replicate (places + 1 - (Nat.toDigits 10 digits).length) '0' ++
    Nat.toDigits 10 digits = padded
  have inside : Digits padded := hp ▸ (digits_zeros _).append (digits_toDigits digits)
  have long : places < padded.length := by
    rw [← hp, List.length_append, List.length_replicate]
    omega
  have number : Nat.ofDigitChars 10 padded 0 = digits := by
    rw [← hp, Nat.ofDigitChars_append, Nat.ofDigitChars_replicate_zero, Nat.mul_zero,
      Nat.ofDigitChars_ten_toDigits]
  have nonempty : padded.take (padded.length - places) ≠ [] := by
    intro h
    have := congrArg List.length h
    rw [List.length_take, List.length_nil] at this
    omega
  have whole : Digits (padded.take (padded.length - places)) :=
    fun c hc => inside c (List.mem_of_mem_take hc)
  have fraction : Digits (padded.drop (padded.length - places)) :=
    fun c hc => inside c (List.mem_of_mem_drop hc)
  have read := read?_point (r := []) whole nonempty fraction (beginsOutside_nil _)
  rw [List.append_nil] at read
  refine ⟨_, read, ?_⟩
  have count : (padded.drop (padded.length - places)).length = places := by
    rw [List.length_drop]
    omega
  simp only [value, Numeral.digits, List.take_append_drop, number, count, zero_sub]

theorem read?_positionalText (d : Decimal) :
    ∃ n, Numeral.read? (layout.positionalText d) = some n ∧ n.value = d.value := by
  unfold positionalText
  dsimp only
  split
  · rename_i negative
    obtain ⟨n, read, value⟩ := read?_withPoint d.digits (-d.exponent).toNat
    refine ⟨n, read, ?_⟩
    rw [value, Decimal.value, show -(((-d.exponent).toNat : Nat) : Int) = d.exponent by omega]
  · rename_i whole
    obtain ⟨k, hk⟩ := Int.eq_ofNat_of_zero_le (Int.not_lt.mp whole)
    have inside : Digits (Nat.toDigits 10 d.digits ++ List.replicate d.exponent.toNat '0') :=
      (digits_toDigits _).append (digits_zeros _)
    have nonempty : Nat.toDigits 10 d.digits ++ List.replicate d.exponent.toNat '0' ≠ [] :=
      List.append_ne_nil_of_left_ne_nil Nat.toDigits_ne_nil _
    cases layout.fraction with
    | false =>
      refine ⟨_, read?_whole (r := []) inside nonempty (beginsOutside_nil _) (by decide), ?_⟩
      simp [value, Numeral.digits, digits_shifted, Decimal.value, hk]
    | true =>
      refine ⟨_, read?_point (r := []) inside nonempty (digits_zeros 1) (beginsOutside_nil _), ?_⟩
      rw [value, Numeral.digits]
      simp only
      rw [List.append_assoc, List.replicate_append_replicate, digits_shifted, Decimal.value, hk]
      simp only [List.length_replicate, Int.toNat_natCast]
      push_cast
      rw [pow_succ, zpow_natCast]
      norm_num [mul_assoc]

theorem read?_scientificText (d : Decimal) :
    ∃ n, Numeral.read? (scientificText (Nat.toDigits 10 d.digits)
       (d.exponent + (Nat.toDigits 10 d.digits).length - 1)) = some n ∧ n.value = d.value := by
  have inside := digits_toDigits d.digits
  have number : Nat.ofDigitChars 10 (Nat.toDigits 10 d.digits) 0 = d.digits :=
    Nat.ofDigitChars_ten_toDigits
  have nonempty : Nat.toDigits 10 d.digits ≠ [] := Nat.toDigits_ne_nil
  have ends : ∀ e : Int, BeginsOutside Char.isDigit
      ('e' :: (if e < 0 then '-' else '+') :: Nat.toDigits 10 e.natAbs) := by
    rintro e c ⟨⟩
    rfl
  generalize Nat.toDigits 10 d.digits = digits at inside number nonempty
  unfold scientificText
  dsimp only
  match digits with
  | [] => exact absurd rfl nonempty
  | [c] =>
    refine ⟨_, (read?_whole inside (List.cons_ne_nil c []) (ends _) nofun).trans
      (by rw [exponent?_signed]; rfl), ?_⟩
    simp [value, Numeral.digits, number, Decimal.value]
  | c :: c' :: rest =>
    have first : Digits [c] := fun a ha => inside a (by simp_all)
    have others : Digits (c' :: rest) := fun a ha => inside a (List.mem_cons_of_mem c ha)
    refine ⟨_, (read?_point first (List.cons_ne_nil c []) others (ends _)).trans
      (by rw [exponent?_signed]; rfl), ?_⟩
    have exponent : d.exponent + ((rest.length : Int) + 1 + 1) - 1 - (rest.length + 1) =
        d.exponent := by omega
    simp [value, Numeral.digits, number, Decimal.value, exponent]

theorem read?_decimalText (d : Decimal) :
    ∃ n, Numeral.read? (layout.decimalText d) = some n ∧ n.value = d.value := by
  unfold decimalText
  dsimp only
  split
  · exact layout.read?_positionalText d
  · exact read?_scientificText d

/-! ## Numbers without their sign -/

/-- The text of the number without its sign. -/
def unsignedText (x : Finite64) : List Char :=
  if x.mantissa = 0 then layout.positionalText ⟨0, 0⟩
  else layout.decimalText (x.shortest layout.tie)

theorem text_eq (x : Finite64) : layout.text x = signed x.negative (layout.unsignedText x) := rfl

/-- The text reads back as a numeral that rounds to the number. -/
theorem read?_unsignedText (x : Finite64) :
    ∃ n, Numeral.read? (layout.unsignedText x) = some n ∧ x.interval.Has n.value := by
  unfold unsignedText
  split
  · rename_i zero
    obtain ⟨n, read, value⟩ := layout.read?_positionalText ⟨0, 0⟩
    refine ⟨n, read, ?_⟩
    rw [value]
    simpa [Decimal.value] using Finite64.interval_has_zero zero
  · obtain ⟨n, read, value⟩ := layout.read?_decimalText (x.shortest layout.tie)
    exact ⟨n, read, value ▸ x.interval_has_shortest layout.tie⟩

/-- A sign in front of a numeral can be told from the numeral. -/
theorem signed_inj {a b : Bool} {s t : List Char} {m n : Numeral}
    (hs : Numeral.read? s = some m) (ht : Numeral.read? t = some n)
    (h : signed a s = signed b t) : a = b ∧ s = t := by
  cases a with
  | false =>
    cases b with
    | false => exact ⟨rfl, h⟩
    | true =>
      have minus : s = '-' :: t := h
      rw [minus, read?_minus] at hs
      cases hs
  | true =>
    cases b with
    | false =>
      have minus : '-' :: s = t := h
      rw [← minus, read?_minus] at ht
      cases ht
    | true => exact ⟨rfl, List.tail_eq_of_cons_eq h⟩

/-- Different numbers have different texts, and so have the two zeros. -/
theorem text_injective : Function.Injective layout.text := by
  intro x y h
  obtain ⟨m, readX, hasX⟩ := layout.read?_unsignedText x
  obtain ⟨n, readY, hasY⟩ := layout.read?_unsignedText y
  rw [text_eq, text_eq] at h
  obtain ⟨negative, unsigned⟩ := signed_inj readX readY h
  rw [unsigned, readY] at readX
  obtain rfl := Option.some.inj readX
  have magnitude := Finite64.magnitude_eq_of_has hasX hasY
  obtain ⟨mantissa, exponent⟩ := Finite64.eq_of_magnitude_eq magnitude
  cases x
  cases y
  simp_all

/-- With a fraction on whole numbers, no number is written like an integer. -/
theorem not_digits_unsignedText (fraction : layout.fraction = true) (x : Finite64) :
    ¬ Digits (layout.unsignedText x) := by
  have positional : ∀ d, '.' ∈ layout.positionalText d := by
    intro d
    unfold positionalText
    dsimp only
    split
    · simp [withPoint]
    · simp
  intro digits
  unfold unsignedText at digits
  split at digits
  · exact absurd (digits '.' (positional _)) (by decide)
  · unfold decimalText at digits
    dsimp only at digits
    split at digits
    · exact absurd (digits '.' (positional _)) (by decide)
    · exact absurd (digits 'e' (by simp [scientificText])) (by decide)

end NumberLayout

/-! ## Numbers of JSON -/

namespace Json

theorem read?_natural (n : Nat) :
    Numeral.read? (Nat.toDigits 10 n) = some ⟨Nat.toDigits 10 n, [], 0⟩ := by
  have read := Numeral.read?_whole (r := []) (Numeral.digits_toDigits n) Nat.toDigits_ne_nil
    (beginsOutside_nil _) (by decide)
  rwa [List.append_nil] at read

theorem intChars_injective : Function.Injective intChars := by
  intro m n h
  obtain ⟨negative, digits⟩ := NumberLayout.signed_inj (read?_natural _) (read?_natural _) h
  have same : m.natAbs = n.natAbs := by
    rw [← Nat.ofDigitChars_ten_toDigits (n := m.natAbs), digits, Nat.ofDigitChars_ten_toDigits]
  rw [decide_eq_decide] at negative
  omega

theorem intChars_ne_text (n : Int) (x : Finite64) : intChars n ≠ NumberLayout.json.text x := by
  intro h
  obtain ⟨m, read, -⟩ := NumberLayout.json.read?_unsignedText x
  obtain ⟨-, digits⟩ := NumberLayout.signed_inj (read?_natural _) read h
  exact NumberLayout.json.not_digits_unsignedText rfl x (digits ▸ Numeral.digits_toDigits _)

/-- Different numbers have different texts, also when they are equal in value. -/
theorem Number.chars_injective : Function.Injective Number.chars := by
  intro m n h
  cases m with
  | int a _ =>
    cases n with
    | int b _ =>
      obtain rfl := intChars_injective h
      rfl
    | float y => exact absurd h (intChars_ne_text a y)
  | float x =>
    cases n with
    | int b _ => exact absurd h.symm (intChars_ne_text b x)
    | float y => rw [NumberLayout.json.text_injective h]

/-- The characters that numbers are written with. -/
def isNumeric (c : Char) : Bool := c.isDigit || c == '+' || c == '-' || c == '.' || c == 'e'

theorem isNumeric_of_isDigit {c : Char} (h : c.isDigit = true) : isNumeric c = true := by
  simp [isNumeric, h]

theorem isNumeric_signed {negative : Bool} {text : List Char}
    (h : ∀ c ∈ text, isNumeric c = true) : ∀ c ∈ NumberLayout.signed negative text,
      isNumeric c = true := by
  intro c hc
  unfold NumberLayout.signed at hc
  split at hc
  · rcases List.mem_cons.mp hc with rfl | hc
    · rfl
    · exact h c hc
  · exact h c hc

theorem isNumeric_positionalText (layout : NumberLayout) (d : Decimal) :
    ∀ c ∈ layout.positionalText d, isNumeric c = true := by
  have digits : ∀ c ∈ Nat.toDigits 10 d.digits, isNumeric c = true :=
    fun c hc => isNumeric_of_isDigit (Numeral.digits_toDigits _ c hc)
  have zeros : ∀ n, ∀ c ∈ List.replicate n '0', isNumeric c = true :=
    fun n c hc => isNumeric_of_isDigit (Numeral.digits_zeros n c hc)
  unfold NumberLayout.positionalText
  dsimp only
  split
  · unfold NumberLayout.withPoint
    dsimp only
    intro c hc
    rcases List.mem_append.mp hc with hc | hc
    · exact (List.mem_append.mp (List.mem_of_mem_take hc)).elim (zeros _ c) (digits c)
    · rcases List.mem_cons.mp hc with rfl | hc
      · rfl
      · exact (List.mem_append.mp (List.mem_of_mem_drop hc)).elim (zeros _ c) (digits c)
  · intro c hc
    rcases List.mem_append.mp hc with hc | hc
    · exact (List.mem_append.mp hc).elim (digits c) (zeros _ c)
    · split at hc
      · simp only [List.mem_cons, List.not_mem_nil, or_false] at hc
        rcases hc with rfl | rfl <;> rfl
      · cases hc

theorem isNumeric_scientificText {digits : List Char} (h : ∀ c ∈ digits, isNumeric c = true)
    (exponent : Int) : ∀ c ∈ NumberLayout.scientificText digits exponent, isNumeric c = true := by
  intro c hc
  unfold NumberLayout.scientificText at hc
  dsimp only at hc
  rcases List.mem_append.mp hc with hc | hc
  · split at hc
    · cases hc
    · exact h c hc
    · rcases List.mem_cons.mp hc with rfl | hc
      · exact h _ List.mem_cons_self
      · rcases List.mem_cons.mp hc with rfl | hc
        · rfl
        · exact h c (List.mem_cons_of_mem _ hc)
  · rcases List.mem_cons.mp hc with rfl | hc
    · rfl
    · rcases List.mem_cons.mp hc with rfl | hc
      · split <;> rfl
      · exact isNumeric_of_isDigit (Numeral.digits_toDigits _ c hc)

theorem isNumeric_unsignedText (layout : NumberLayout) (x : Finite64) :
    ∀ c ∈ layout.unsignedText x, isNumeric c = true := by
  unfold NumberLayout.unsignedText
  split
  · exact isNumeric_positionalText layout _
  · unfold NumberLayout.decimalText
    dsimp only
    split
    · exact isNumeric_positionalText layout _
    · exact isNumeric_scientificText
        (fun c hc => isNumeric_of_isDigit (Numeral.digits_toDigits _ c hc)) _

theorem Number.isNumeric_chars (n : Number) : ∀ c ∈ n.chars, isNumeric c = true := by
  cases n with
  | int n _ =>
    exact isNumeric_signed fun c hc => isNumeric_of_isDigit (Numeral.digits_toDigits _ c hc)
  | float x =>
    rw [Number.chars, NumberLayout.text_eq]
    exact isNumeric_signed (isNumeric_unsignedText _ x)

theorem Number.chars_ne_nil (n : Number) : n.chars ≠ [] := by
  have nonempty : ∀ (negative : Bool) {text : List Char}, text ≠ [] →
      NumberLayout.signed negative text ≠ [] := by
    intro negative text h
    cases negative with
    | false => exact h
    | true => exact List.cons_ne_nil _ _
  cases n with
  | int n _ => exact nonempty _ Nat.toDigits_ne_nil
  | float x =>
    obtain ⟨m, read, -⟩ := NumberLayout.json.read?_unsignedText x
    have unsigned : NumberLayout.json.unsignedText x ≠ [] := by
      intro empty
      rw [empty] at read
      cases read
    exact nonempty x.negative unsigned

end Json

end FeatureGate
