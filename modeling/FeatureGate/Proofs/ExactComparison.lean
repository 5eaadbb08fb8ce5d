import FeatureGate.Proofs.Comparison

/-!
# Exact comparison

A binary64 number can be compared with an integer by machine operations: it has no fraction, lies in
the range of the integer type, and its conversion to that type gives the integer. The conversion
saturates, but the range has been tested before, so no integer is rounded and no bound is taken for
its neighbour. Scalars are thus equal to the numbers of their own exact value, and conditions hold
exactly as their operators say of that equality.
-/

namespace FeatureGate

namespace Finite64

variable {x : Finite64}

/-- Whether the number has no fraction. -/
def isWhole (x : Finite64) : Bool := x.units % unitsPerOne == 0

/-- The integer that is left when the fraction is dropped. -/
def truncate (x : Finite64) : Int := x.units.tdiv unitsPerOne

theorem isWhole_of_units {n : Int} (h : x.units = n * unitsPerOne) : x.isWhole = true := by
  rw [isWhole, h, Int.mul_emod_left]
  rfl

theorem truncate_of_units {n : Int} (h : x.units = n * unitsPerOne) : x.truncate = n := by
  have nonzero : (unitsPerOne : Int) ≠ 0 := Int.natCast_ne_zero.mpr (ne_of_gt unitsPerOne_pos)
  rw [truncate, h, Int.mul_tdiv_cancel _ nonzero]

/-- A number without a fraction is the integer that it is converted to. -/
theorem units_of_isWhole (h : x.isWhole = true) : x.units = x.truncate * unitsPerOne := by
  obtain ⟨n, hn⟩ := Int.dvd_of_emod_eq_zero (beq_iff_eq.mp h)
  rw [Int.mul_comm] at hn
  rw [truncate_of_units hn]
  exact hn

end Finite64

namespace Binary64

/-- Whether the number has no fraction. What is not finite has one that is not a number. -/
def isWhole : Binary64 → Bool
  | .finite x => x.isWhole
  | _ => false

/-- Whether the number is less than the integer. -/
def below (x : Binary64) (n : Int) : Bool :=
  match x with
  | .nan => false
  | .infinity negative => negative
  | .finite x => x.units < n * Finite64.unitsPerOne

/-- The conversion to an integer type of values from `low` to `high`, which drops the fraction and
gives the nearer bound outside. -/
def saturate (low high : Int) : Binary64 → Int
  | .nan => 0
  | .infinity negative => if negative then low else high
  | .finite x => max low (min x.truncate high)

/-- Comparison with an integer of a type whose values start at `low` and end before `bound`. -/
def equalsInt (low bound : Int) (x : Binary64) (n : Int) : Bool :=
  x.isWhole && x.atLeast low && x.below bound && x.saturate low (bound - 1) == n

/-- Within the range of its type, an integer equals exactly the number of its own value. -/
theorem equalsInt_iff {low bound n : Int} (range : low ≤ n ∧ n < bound) {x : Binary64} :
    x.equalsInt low bound n = true ↔ ∃ y, x = .finite y ∧ y.value = n := by
  cases x with
  | nan | infinity => simp [equalsInt, isWhole]
  | finite y =>
    have pos : (0 : Int) < Finite64.unitsPerOne := Int.natCast_pos.mpr Finite64.unitsPerOne_pos
    simp only [equalsInt, Bool.and_eq_true, beq_iff_eq, isWhole, atLeast, below, saturate,
      decide_eq_true_iff, finite.injEq, exists_eq_left', Finite64.value_eq_int_iff]
    constructor
    · rintro ⟨⟨⟨whole, least⟩, less⟩, same⟩
      have units := Finite64.units_of_isWhole whole
      rw [units] at least less
      have least := Int.le_of_mul_le_mul_right least pos
      have less := Int.lt_of_mul_lt_mul_right less pos.le
      -- inside the range, saturation changes nothing
      have inside : y.truncate = n := by omega
      rw [units, inside]
    · intro units
      refine ⟨⟨⟨Finite64.isWhole_of_units units, ?_⟩, ?_⟩, ?_⟩
      · rw [units]
        exact Int.mul_le_mul_of_nonneg_right range.1 pos.le
      · rw [units]
        exact Int.mul_lt_mul_of_pos_right range.2 pos
      · rw [Finite64.truncate_of_units units]
        omega

end Binary64

namespace Scalar

/-- Equality with an attribute by machine operations. Integers from `2 ^ 63` on are compared with
numbers as unsigned ones, and equal no integer of 64 signed bits. -/
def equalsByConversion (s : Scalar) (v : Json) : Bool :=
  match s, v with
  | .bool a, .bool b => a == b
  | .text a, .string b => a == b
  | .int a, .number (.int b _) => if b < 2 ^ 63 then a == .ofInt b else false
  | .int a, .number (.float y) => (Binary64.finite y).equalsInt (-2 ^ 63) (2 ^ 63) a.toInt
  | .float x, .number (.int b _) =>
    if b < 2 ^ 63 then x.equalsInt (-2 ^ 63) (2 ^ 63) b else x.equalsInt 0 (2 ^ 64) b
  | .float x, .number (.float y) => x.same (.finite y)
  | _, _ => false

/-- By machine operations too, a scalar equals the numbers of the value that it denotes. -/
theorem equalsByConversion_number_iff (s : Scalar) (n : Json.Number) :
    s.equalsByConversion (.number n) = true ↔ s.denotation? = some (.number n.value) := by
  cases s with
  | bool | text => simp [equalsByConversion, denotation?]
  | int a =>
    have range : -2 ^ 63 ≤ a.toInt ∧ a.toInt < 2 ^ 63 := ⟨a.le_toInt, a.toInt_lt⟩
    simp only [denotation?, Option.some.injEq, Denotation.number.injEq]
    cases n with
    | int b inRange =>
      simp only [equalsByConversion, Json.Number.value, Int.cast_inj]
      split
      · rename_i low
        rw [beq_iff_eq, ← Int64.toInt_inj, Int64.toInt_ofInt_of_le inRange.1 low]
      · rename_i high
        simp only [Bool.false_eq_true, false_iff]
        omega
    | float y =>
      simp only [equalsByConversion, Binary64.equalsInt_iff range, Binary64.finite.injEq,
        exists_eq_left', Json.Number.value]
      exact eq_comm
  | float x =>
    have denotes : (float x).denotation? = some (.number n.value) ↔
        ∃ y, x = .finite y ∧ y.value = n.value := by
      cases x <;> simp [denotation?]
    rw [denotes]
    cases n with
    | int b inRange =>
      simp only [equalsByConversion, Json.Number.value]
      split
      · rename_i low
        exact Binary64.equalsInt_iff ⟨inRange.1, low⟩
      · rename_i high
        exact Binary64.equalsInt_iff ⟨by omega, inRange.2⟩
    | float y =>
      cases x with
      | nan | infinity => simp [equalsByConversion, Binary64.same]
      | finite x => simp [equalsByConversion, Binary64.same, Finite64.same_iff, Json.Number.value]

/-- The machine operations compare by value: nothing is rounded, and nothing saturates. -/
theorem equalsByConversion_eq (s : Scalar) (v : Json) : s.equalsByConversion v = s.equals v := by
  cases v with
  | number n => rw [Bool.eq_iff_iff, equalsByConversion_number_iff, equals_number_iff]
  | null | bool | string | array | object =>
    cases s with
    | float x => cases x <;> rfl
    | bool | int | text => rfl

/-- The largest integer of 64 signed bits is not the number that it is rounded to. -/
example :
    (Scalar.int .maxValue).equalsByConversion
      (.number (.float ⟨false, 2 ^ 52, 1085, by decide⟩)) = false := by
  decide +kernel

/-! ## Equality of content -/

/-- Equality of content: of two texts, two truth values, or two numbers by their exact value. -/
inductive EqualTo : Scalar → Json → Prop where
  | bool (b : Bool) : EqualTo (.bool b) (.bool b)
  | text (s : String) : EqualTo (.text s) (.string s)
  | int (a : Int64) (n : Json.Number) (h : n.value = a.toInt) : EqualTo (.int a) (.number n)
  | float (x : Finite64) (n : Json.Number) (h : n.value = x.value) :
    EqualTo (.float (.finite x)) (.number n)

/-- Equality by value is equality of content. -/
theorem equals_iff_equalTo (s : Scalar) (v : Json) : s.equals v = true ↔ s.EqualTo v := by
  constructor
  · intro equal
    obtain ⟨d, scalar, value⟩ := (equals_iff s v).mp equal
    cases s with
    | bool b =>
      obtain rfl := Option.some.inj scalar
      cases v with
      | bool =>
        cases value
        exact .bool b
      | _ => cases value
    | text t =>
      obtain rfl := Option.some.inj scalar
      cases v with
      | string =>
        cases value
        exact .text t
      | _ => cases value
    | int a =>
      obtain rfl := Option.some.inj scalar
      cases v with
      | number n =>
        simp only [Json.denotation?, Option.some.injEq, Denotation.number.injEq] at value
        exact .int a n value
      | _ => cases value
    | float x =>
      cases x with
      | finite x =>
        obtain rfl := Option.some.inj scalar
        cases v with
        | number n =>
          simp only [Json.denotation?, Option.some.injEq, Denotation.number.injEq] at value
          exact .float x n value
        | _ => cases value
      | nan | infinity => cases scalar
  · intro equal
    rw [equals_iff]
    cases equal with
    | bool | text => exact ⟨_, rfl, rfl⟩
    | int a n h => exact ⟨.number n.value, by rw [denotation?, h], rfl⟩
    | float x n h => exact ⟨.number n.value, by rw [denotation?, h], rfl⟩

end Scalar

namespace Comparand

/-- A scalar equals what has its content, a list the arrays of its length that match pairwise. -/
inductive EqualTo : Comparand → Json → Prop where
  | scalar (s : Scalar) (v : Json) (h : s.EqualTo v) : EqualTo (.scalar s) v
  | list (ss : List Scalar) (vs : List Json) (h : List.Forall₂ Scalar.EqualTo ss vs) :
    EqualTo (.list ss) (.array vs)

theorem matchItems_iff_equalTo {ss : List Scalar} {vs : List Json} :
    matchItems ss vs = true ↔ List.Forall₂ Scalar.EqualTo ss vs := by
  have each : List.Forall₂ (fun s t => ∀ v, t.equals v = true ↔ s.EqualTo v) ss ss :=
    List.forall₂_same.mpr fun s _ => s.equals_iff_equalTo
  exact matchItems_iff each

theorem equals_iff_equalTo (c : Comparand) (v : Json) : c.equals v = true ↔ c.EqualTo v := by
  cases c with
  | scalar s =>
    rw [equals, Scalar.equals_iff_equalTo]
    constructor
    · exact EqualTo.scalar s v
    · intro equal
      cases equal with
      | scalar _ _ h => exact h
  | list ss =>
    constructor
    · intro equal
      cases v with
      | array vs =>
        exact .list ss vs (matchItems_iff_equalTo.mp equal)
      | _ => cases equal
    · intro equal
      cases equal with
      | list _ vs h =>
        exact matchItems_iff_equalTo.mpr h

theorem contains?_eq_some_iff_equalTo (c : Comparand) (v : Json) (found : Bool) :
    c.contains? v = some found ↔
      ∃ ss, c = .list ss ∧ ((∃ s ∈ ss, s.EqualTo v) ↔ found = true) := by
  cases c with
  | scalar s => simp [contains?, items?]
  | list ss =>
    simp only [contains?, items?, Option.map_some, Option.some.injEq, list.injEq, exists_eq_left',
      ← Scalar.equals_iff_equalTo]
    rw [← List.any_eq_true, Bool.eq_iff_iff]

end Comparand

/-- Whether an operator accepts an attribute when it compares it with a value. -/
def Operator.Accepts : Operator → Comparand → Json → Prop
  | .equal, c, v => c.EqualTo v
  | .notEqual, c, v => ¬ c.EqualTo v
  | .isIn, c, v => ∃ ss, c = .list ss ∧ ∃ s ∈ ss, s.EqualTo v
  | .notIn, c, v => ∃ ss, c = .list ss ∧ ¬ ∃ s ∈ ss, s.EqualTo v
  | .unknown _, _, _ => False

theorem Condition.accepts_iff_operator (c : Condition) (v : Json) :
    c.accepts v = true ↔ c.op.Accepts c.value v := by
  unfold accepts Operator.Accepts
  cases c.op with
  | equal => exact c.value.equals_iff_equalTo v
  | notEqual =>
    dsimp only
    rw [Bool.not_eq_true', ← Bool.not_eq_true, c.value.equals_iff_equalTo]
  | isIn => simp [c.value.contains?_eq_some_iff_equalTo]
  | notIn => simp [c.value.contains?_eq_some_iff_equalTo]
  | unknown name => simp

/-- Comparison is exact. The machine operations compare by value, and a condition holds of a context
exactly if its attribute is present and accepted by the operator. -/
theorem Condition.holds_iff_operator :
    (∀ s v, Scalar.equalsByConversion s v = s.equals v) ∧
      ∀ (c : Condition) (ctx : Context),
        c.holds ctx = true ↔ ∃ v, ctx.get? c.property = some v ∧ c.op.Accepts c.value v := by
  constructor
  · exact Scalar.equalsByConversion_eq
  · intro c ctx
    unfold holds
    constructor
    · intro holds
      split at holds
      · cases holds
      · rename_i v present
        exact ⟨v, present, (c.accepts_iff_operator v).mp holds⟩
    · rintro ⟨v, present, accepted⟩
      rw [present]
      exact (c.accepts_iff_operator v).mpr accepted

end FeatureGate
