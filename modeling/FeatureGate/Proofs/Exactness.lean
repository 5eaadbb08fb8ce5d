import FeatureGate.Json.Basic
import Mathlib.Data.Rat.Cast.Order
import Mathlib.Algebra.Order.Field.Basic
import Mathlib.Tactic.Ring

/-!
# Exact numbers

The value of a number is a rational number. A binary64 number has one mantissa and one exponent for
its value, so that equality of the data is equality of the values, and rounding gives back what can
be represented. The integers below `2 ^ 53` can be, and so can the multiples of `2 ^ 11` up to
`2 ^ 64`.
-/

namespace FeatureGate

namespace Finite64

variable {x y : Finite64}

/-- The value of the number. -/
def value (x : Finite64) : ℚ := x.units / unitsPerOne

theorem two_pow_add (k : Nat) : 2 ^ (k + 1074) = 2 ^ k * unitsPerOne := by
  have split : ∀ e : Nat, 2 ^ (k + e) = 2 ^ k * 2 ^ e := Nat.pow_add 2 k
  exact split 1074

theorem two_pow_eq {e : Nat} (h : 1074 ≤ e) : 2 ^ e = 2 ^ (e - 1074) * unitsPerOne := by
  rw [← two_pow_add, Nat.sub_add_cancel h]

theorem unitsPerOne_eq {e : Nat} (h : e ≤ 1074) : unitsPerOne = 2 ^ (1074 - e) * 2 ^ e := by
  rw [unitsPerOne, ← Nat.pow_add, Nat.sub_add_cancel h]

theorem unitsPerOne_pos : 0 < unitsPerOne := by
  have pos : ∀ e : Nat, 0 < 2 ^ e := Nat.two_pow_pos
  exact pos 1074

theorem unitsPerOne_rat_pos : (0 : ℚ) < (unitsPerOne : ℚ) := Nat.cast_pos.mpr unitsPerOne_pos

theorem value_eq_value_iff : x.value = y.value ↔ x.units = y.units := by
  unfold value
  rw [div_left_inj' (ne_of_gt unitsPerOne_rat_pos), Int.cast_inj]

theorem value_eq_int_iff {n : Int} : x.value = n ↔ x.units = n * unitsPerOne := by
  unfold value
  rw [div_eq_iff (ne_of_gt unitsPerOne_rat_pos)]
  exact_mod_cast Iff.rfl

theorem int_le_value_iff {n : Int} : (n : ℚ) ≤ x.value ↔ n * unitsPerOne ≤ x.units := by
  unfold value
  rw [le_div_iff₀ unitsPerOne_rat_pos]
  exact_mod_cast Iff.rfl

theorem value_le_int_iff {n : Int} : x.value ≤ n ↔ x.units ≤ n * unitsPerOne := by
  unfold value
  rw [div_le_iff₀ unitsPerOne_rat_pos]
  exact_mod_cast Iff.rfl

/-- The number one, with a mantissa of full length. -/
def one : Finite64 := ⟨false, 2 ^ 52, 1022, by decide⟩

theorem value_one : one.value = (1 : Int) := value_eq_int_iff.mpr (by decide +kernel)

/-! ## One form for each value -/

theorem magnitude_lt (x : Finite64) : x.magnitude < 2 ^ (53 + x.exponent) := by
  rw [magnitude, Nat.pow_add]
  exact Nat.mul_lt_mul_of_pos_right x.normal.1 (Nat.two_pow_pos _)

theorem le_magnitude (h : 0 < x.exponent) : 2 ^ (52 + x.exponent) ≤ x.magnitude := by
  have full : 2 ^ 52 ≤ x.mantissa := by
    rcases x.normal.2.2 with least | full
    · omega
    · exact full
  rw [magnitude, Nat.pow_add]
  exact Nat.mul_le_mul_right _ full

theorem exponent_le (h : x.magnitude ≤ y.magnitude) : x.exponent ≤ y.exponent := by
  by_contra above
  have low := le_magnitude (x := x) (by omega)
  have high := y.magnitude_lt
  have between : 2 ^ (53 + y.exponent) ≤ 2 ^ (52 + x.exponent) :=
    Nat.pow_le_pow_right (by omega) (by omega)
  omega

/-- The exponent of a number of at least `2 ^ k`. -/
theorem exponent_ge {k : Nat} (h : 2 ^ k * unitsPerOne ≤ x.magnitude) : k + 1021 < x.exponent := by
  have below := Nat.lt_of_le_of_lt h x.magnitude_lt
  rw [← two_pow_add, Nat.pow_lt_pow_iff_right (Nat.lt_succ_self 1)] at below
  omega

theorem eq_of_magnitude_eq (h : x.magnitude = y.magnitude) :
    x.mantissa = y.mantissa ∧ x.exponent = y.exponent := by
  have exponent : x.exponent = y.exponent :=
    Nat.le_antisymm (exponent_le (Nat.le_of_eq h)) (exponent_le (Nat.le_of_eq h.symm))
  refine ⟨?_, exponent⟩
  rw [magnitude, magnitude, exponent] at h
  exact Nat.eq_of_mul_eq_mul_right (Nat.two_pow_pos _) h

theorem magnitude_eq_zero_iff : x.magnitude = 0 ↔ x.mantissa = 0 := by
  rw [magnitude, Nat.mul_eq_zero]
  constructor
  · rintro (zero | power)
    · exact zero
    · exact absurd power (Nat.ne_of_gt (Nat.two_pow_pos _))
  · exact .inl

theorem units_eq_zero_iff : x.units = 0 ↔ x.mantissa = 0 := by
  rw [← magnitude_eq_zero_iff, units]
  split <;> omega

theorem same_iff : x.same y = true ↔ x.value = y.value := by
  rw [value_eq_value_iff]
  simp only [same, Bool.and_eq_true, Bool.or_eq_true, beq_iff_eq]
  constructor
  · rintro ⟨⟨mantissa, exponent⟩, negative | zero⟩
    · simp only [units, magnitude, mantissa, exponent, negative]
    · rw [units_eq_zero_iff.mpr zero, units_eq_zero_iff.mpr (mantissa ▸ zero)]
  · intro h
    have magnitude : x.magnitude = y.magnitude := by
      unfold units at h
      split at h <;> split at h <;> omega
    refine ⟨eq_of_magnitude_eq magnitude, ?_⟩
    by_cases negative : x.negative = y.negative
    · exact .inl negative
    · right
      rw [← magnitude_eq_zero_iff]
      unfold units at h
      split at h <;> split at h <;> first | omega | simp_all

/-! ## Integers -/

theorem units_eq_int_iff {n : Int} :
    x.units = n * unitsPerOne ↔
      ∃ k : Nat, x.magnitude = k * unitsPerOne ∧ (if x.negative then -(k : Int) else k) = n := by
  have pos := unitsPerOne_pos
  generalize unitsPerOne = one at pos
  unfold units
  cases x.negative with
  | false =>
    simp only [Bool.false_eq_true, if_false]
    constructor
    · intro h
      have sign : 0 ≤ n := by
        by_contra negative
        have : n * (one : Int) < 0 := Int.mul_neg_of_neg_of_pos (by omega) (by omega)
        omega
      lift n to ℕ using sign
      exact ⟨n, by exact_mod_cast h, rfl⟩
    · rintro ⟨k, magnitude, rfl⟩
      exact_mod_cast magnitude
  | true =>
    simp only [if_true]
    constructor
    · intro h
      have sign : 0 ≤ -n := by
        by_contra negative
        have : 0 < n * (one : Int) := Int.mul_pos (by omega) (by omega)
        omega
      obtain ⟨k, hk⟩ := Int.eq_ofNat_of_zero_le sign
      refine ⟨k, ?_, by omega⟩
      have flipped : (x.magnitude : Int) = -n * one := by rw [Int.neg_mul, ← h, Int.neg_neg]
      rw [hk] at flipped
      exact_mod_cast flipped
    · rintro ⟨k, magnitude, rfl⟩
      rw [magnitude]
      push_cast
      ring

/-- A magnitude is whole if its exponent is large, or if enough of the low bits of its mantissa are
zero. -/
theorem magnitude_eq_whole_iff {k : Nat} :
    x.magnitude = k * unitsPerOne ↔
      (if 1074 ≤ x.exponent then some (x.mantissa * 2 ^ (x.exponent - 1074))
        else if x.mantissa % 2 ^ (1074 - x.exponent) = 0 then
          some (x.mantissa / 2 ^ (1074 - x.exponent))
        else none) = some k := by
  unfold magnitude
  split
  · rename_i large
    rw [two_pow_eq large, ← Nat.mul_assoc, Nat.mul_left_inj (Nat.ne_of_gt unitsPerOne_pos),
      Option.some.injEq]
  · rename_i small
    rw [unitsPerOne_eq (Nat.le_of_not_le small), ← Nat.mul_assoc,
      Nat.mul_left_inj (Nat.ne_of_gt (Nat.two_pow_pos x.exponent))]
    have pos := Nat.two_pow_pos (1074 - x.exponent)
    generalize 2 ^ (1074 - x.exponent) = d at pos
    split
    · rename_i whole
      rw [Option.some.injEq, Nat.div_eq_iff_eq_mul_left pos (Nat.dvd_of_mod_eq_zero whole)]
    · rename_i fraction
      constructor
      · intro h
        rw [h, Nat.mul_mod_left] at fraction
        exact absurd rfl fraction
      · intro h
        cases h

theorem toInt?_eq_some_iff {n : Int} : x.toInt? = some n ↔ x.value = n := by
  rw [value_eq_int_iff, units_eq_int_iff]
  simp only [toInt?, Option.map_eq_some_iff, magnitude_eq_whole_iff]

/-! ## Integers that can be represented -/

/-- A mantissa of at most 53 bits has a number at every exponent in the range. -/
theorem exists_magnitude_eq {m : Nat} (short : m < 2 ^ 53) {k : Nat} (range : k ≤ 971) :
    ∃ x : Finite64, x.magnitude = m * 2 ^ k * unitsPerOne := by
  by_cases zero : m = 0
  · exact ⟨.zero false, by simp [zero, Finite64.zero, magnitude]⟩
  · have log := (Nat.log2_lt zero).mpr short
    have full : 2 ^ 52 ≤ m * 2 ^ (52 - m.log2) := by
      have low := Nat.mul_le_mul_right (2 ^ (52 - m.log2)) (Nat.log2_self_le zero)
      rwa [← Nat.pow_add, show m.log2 + (52 - m.log2) = 52 by omega] at low
    have fits : m * 2 ^ (52 - m.log2) < 2 ^ 53 := by
      have high := Nat.mul_lt_mul_of_pos_right (Nat.lt_log2_self (n := m))
        (Nat.two_pow_pos (52 - m.log2))
      rwa [← Nat.pow_add, show m.log2 + 1 + (52 - m.log2) = 53 by omega] at high
    refine ⟨⟨false, m * 2 ^ (52 - m.log2), k + 1074 - (52 - m.log2), fits, by omega, .inr full⟩, ?_⟩
    rw [magnitude, Nat.mul_assoc, ← Nat.pow_add, Nat.mul_assoc, ← two_pow_add,
      Nat.add_sub_cancel' (by omega)]

theorem exists_value_eq_of_magnitude {x : Finite64} {n : Int}
    (h : x.magnitude = n.natAbs * unitsPerOne) : ∃ y : Finite64, y.value = n := by
  refine ⟨{ x with negative := decide (n < 0) }, ?_⟩
  rw [value_eq_int_iff, units_eq_int_iff]
  refine ⟨n.natAbs, h, ?_⟩
  by_cases negative : n < 0
  · simp only [negative, decide_true, if_true]
    omega
  · simp only [negative, decide_false, Bool.false_eq_true, if_false]
    omega

theorem exists_value_of_small {n : Int} (h : n.natAbs < 2 ^ 53) : ∃ x : Finite64, x.value = n := by
  obtain ⟨x, hx⟩ := exists_magnitude_eq h (k := 0) (by omega)
  rw [Nat.pow_zero, Nat.mul_one] at hx
  exact exists_value_eq_of_magnitude hx

/-- Integers of 64 bits have eleven bits more than a mantissa. -/
theorem exists_value_iff_dvd {n : Int} (low : 2 ^ 63 ≤ n) (high : n < 2 ^ 64) :
    (∃ x : Finite64, x.value = n) ↔ 2 ^ 11 ∣ n := by
  constructor
  · rintro ⟨x, hx⟩
    obtain ⟨k, magnitude, sign⟩ := units_eq_int_iff.mp (value_eq_int_iff.mp hx)
    have same : n = k := by
      split at sign <;> omega
    have large : 2 ^ 63 * unitsPerOne ≤ x.magnitude := by
      rw [magnitude]
      exact Nat.mul_le_mul_right _ (by omega)
    have exponent := exponent_ge large
    have whole := magnitude_eq_whole_iff.mp magnitude
    rw [if_pos (by omega), Option.some.injEq] at whole
    rw [same, ← whole, show x.exponent - 1074 = x.exponent - 1085 + 11 by omega, Nat.pow_add,
      ← Nat.mul_assoc]
    exact_mod_cast Nat.dvd_mul_left (2 ^ 11) _
  · rintro ⟨m, rfl⟩
    obtain ⟨x, hx⟩ := exists_magnitude_eq (m := m.natAbs) (by omega) (k := 11) (by omega)
    apply exists_value_eq_of_magnitude (x := x)
    rw [hx, Int.natAbs_mul, Nat.mul_comm m.natAbs]
    rfl

end Finite64

/-! ## Rounding -/

namespace Binary64

theorem div_le_roundEven (num den : Nat) : num / den ≤ roundEven num den := by
  unfold roundEven
  dsimp only
  split
  · exact Nat.le_refl _
  · split <;> omega

theorem roundEven_mul (m : Nat) {den : Nat} (pos : 0 < den) : roundEven (m * den) den = m := by
  simp [roundEven, Nat.mul_div_cancel m pos, pos]

theorem ofMantissa_of_normal (negative : Bool) (x : Finite64) :
    ofMantissa negative x.mantissa x.exponent =
      .finite ⟨negative, x.mantissa, x.exponent, x.normal⟩ := by
  have differs : x.mantissa ≠ 2 ^ 53 := Nat.ne_of_lt x.normal.1
  simp only [ofMantissa, differs, if_false, x.normal, and_self, dite_true]

/-- Carrying a mantissa keeps the magnitude. -/
theorem ofMantissa_cases (negative : Bool) (m e : Nat) :
    ofMantissa negative m e = .infinity negative ∨
      ∃ y, ofMantissa negative m e = .finite y ∧ y.negative = negative ∧
        y.magnitude = m * 2 ^ e := by
  unfold ofMantissa
  by_cases carried : m = 2 ^ 53
  · simp only [carried, if_true]
    split
    · refine .inr ⟨_, rfl, rfl, ?_⟩
      rw [Finite64.magnitude, Nat.pow_succ 2 e]
      ring
    · exact .inl rfl
  · simp only [carried, if_false]
    split
    · exact .inr ⟨_, rfl, rfl, rfl⟩
    · exact .inl rfl

/-- A ratio that is the magnitude of a number is not changed by rounding. -/
theorem ofRatio_of_magnitude {x : Finite64} {num den : Nat} (pos : 0 < den)
    (h : num * Finite64.unitsPerOne = x.magnitude * den) (negative : Bool) :
    ofRatio negative num den = .finite ⟨negative, x.mantissa, x.exponent, x.normal⟩ := by
  have exponent : (if x.magnitude < 2 ^ 53 then 0 else x.magnitude.log2 - 52) = x.exponent := by
    split
    · rename_i small
      by_contra positive
      have low := Finite64.le_magnitude (x := x) (by omega)
      have : 2 ^ 53 ≤ 2 ^ (52 + x.exponent) := Nat.pow_le_pow_right (by omega) (by omega)
      omega
    · rename_i large
      have high := x.magnitude_lt
      have positive : 0 < x.exponent := by
        by_contra least
        have zero : x.exponent = 0 := by omega
        rw [zero] at high
        exact large high
      have log : x.magnitude.log2 = 52 + x.exponent := by
        rw [Nat.log2_eq_iff (by omega)]
        refine ⟨Finite64.le_magnitude positive, ?_⟩
        rwa [show 52 + x.exponent + 1 = 53 + x.exponent by omega]
      omega
  unfold ofRatio
  dsimp only
  rw [h, Nat.mul_div_cancel _ pos, exponent, Finite64.magnitude, Nat.mul_assoc,
    Nat.mul_comm (2 ^ x.exponent) den,
    roundEven_mul _ (Nat.mul_pos pos (Nat.two_pow_pos _)), ofMantissa_of_normal]

/-- An integer that is the value of a number is not changed by rounding. -/
theorem ofInt_of_value {n : Int} {x : Finite64} (h : x.value = n) :
    ∃ y, ofInt n = .finite y ∧ y.value = n := by
  obtain ⟨k, magnitude, sign⟩ := Finite64.units_eq_int_iff.mp (Finite64.value_eq_int_iff.mp h)
  have same : n.natAbs = k := by
    rw [← sign]
    split <;> omega
  refine ⟨_, ofRatio_of_magnitude Nat.one_pos (by rw [same, magnitude, Nat.mul_one]) _, ?_⟩
  rw [Finite64.value_eq_int_iff, Finite64.units_eq_int_iff]
  refine ⟨k, magnitude, ?_⟩
  by_cases negative : n < 0
  · simp only [negative, decide_true, if_true]
    omega
  · simp only [negative, decide_false, Bool.false_eq_true, if_false]
    omega

theorem ofInt_of_small {n : Int} (small : n.natAbs < 2 ^ 53) :
    ∃ y, ofInt n = .finite y ∧ y.value = n := by
  obtain ⟨x, hx⟩ := Finite64.exists_value_of_small small
  exact ofInt_of_value hx

theorem le_log2 {k whole : Nat} (h : 2 ^ k * Finite64.unitsPerOne ≤ whole) :
    k + 1074 ≤ whole.log2 := by
  have pos : 0 < 2 ^ k * Finite64.unitsPerOne :=
    Nat.mul_pos (Nat.two_pow_pos k) Finite64.unitsPerOne_pos
  rw [Nat.le_log2 (Nat.ne_of_gt (Nat.lt_of_lt_of_le pos h)), Finite64.two_pow_add]
  exact h

/-- Rounding keeps a number at or above a power of two. -/
theorem le_roundEven_mul {k whole : Nat} (h : 2 ^ k * Finite64.unitsPerOne ≤ whole) :
    2 ^ k * Finite64.unitsPerOne ≤
      roundEven whole (2 ^ (whole.log2 - 52)) * 2 ^ (whole.log2 - 52) := by
  have log := le_log2 h
  have nonzero : whole ≠ 0 := by
    rintro rfl
    rw [Nat.log2_zero] at log
    omega
  have full : 2 ^ 52 ≤ roundEven whole (2 ^ (whole.log2 - 52)) := by
    apply Nat.le_trans _ (div_le_roundEven _ _)
    rw [Nat.le_div_iff_mul_le (Nat.two_pow_pos _), ← Nat.pow_add,
      Nat.add_sub_cancel' (by omega)]
    exact Nat.log2_self_le nonzero
  calc 2 ^ k * Finite64.unitsPerOne = 2 ^ (k + 1074) := (Finite64.two_pow_add k).symm
    _ ≤ 2 ^ (52 + (whole.log2 - 52)) := Nat.pow_le_pow_right (by omega) (by omega)
    _ = 2 ^ 52 * 2 ^ (whole.log2 - 52) := Nat.pow_add 2 52 _
    _ ≤ _ := Nat.mul_le_mul_right _ full

/-- An integer of more than 53 bits becomes a number of more than 53 bits, or infinity. -/
theorem ofInt_of_large {n : Int} (h : 2 ^ 53 ≤ n.natAbs) :
    ofInt n = .infinity (decide (n < 0)) ∨
      ∃ y, ofInt n = .finite y ∧ y.negative = decide (n < 0) ∧
        2 ^ 53 * Finite64.unitsPerOne ≤ y.magnitude := by
  have units : 2 ^ 53 * Finite64.unitsPerOne ≤ n.natAbs * Finite64.unitsPerOne :=
    Nat.mul_le_mul_right _ h
  have large : ¬ n.natAbs * Finite64.unitsPerOne < 2 ^ 53 := by
    have bound := Nat.le_mul_of_pos_right (2 ^ 53) Finite64.unitsPerOne_pos
    exact Nat.not_lt_of_le (Nat.le_trans bound units)
  have rounded := le_roundEven_mul units
  unfold ofInt ofRatio
  dsimp only
  rw [Nat.div_one, Nat.one_mul, if_neg large]
  generalize n.natAbs * Finite64.unitsPerOne = whole at rounded
  rcases ofMantissa_cases (decide (n < 0)) (roundEven whole (2 ^ (whole.log2 - 52)))
    (whole.log2 - 52) with infinite | ⟨y, finite, sign, magnitude⟩
  · exact .inl infinite
  · refine .inr ⟨y, finite, sign, ?_⟩
    rw [magnitude]
    exact rounded

/-! ### Integers that stay finite -/

theorem exists_finite_ofMantissa (negative : Bool) {m e : Nat} (short : m ≤ 2 ^ 53)
    (range : e ≤ 2044) (full : e = 0 ∨ 2 ^ 52 ≤ m) : ∃ x, ofMantissa negative m e = .finite x := by
  unfold ofMantissa
  by_cases carried : m = 2 ^ 53
  · have fits : 2 ^ 52 < 2 ^ 53 ∧ e + 1 ≤ 2045 ∧ (e + 1 = 0 ∨ 2 ^ 52 ≤ 2 ^ 52) := by omega
    simp only [carried, if_true, fits, and_self, dite_true]
    exact ⟨_, rfl⟩
  · have fits : m < 2 ^ 53 ∧ e ≤ 2045 ∧ (e = 0 ∨ 2 ^ 52 ≤ m) := by omega
    simp only [carried, if_false, fits, and_self, dite_true]
    exact ⟨_, rfl⟩

theorem roundEven_le (num den : Nat) : roundEven num den ≤ num / den + 1 := by
  unfold roundEven
  dsimp only
  split
  · omega
  · split <;> omega

/-- An integer of 64 bits is not rounded to infinity. -/
theorem exists_finite_ofInt {n : Int} (bound : n.natAbs < 2 ^ 64) : ∃ x, ofInt n = .finite x := by
  by_cases small : n.natAbs < 2 ^ 53
  · obtain ⟨x, finite, -⟩ := ofInt_of_small small
    exact ⟨x, finite⟩
  · have units : 2 ^ 53 * Finite64.unitsPerOne ≤ n.natAbs * Finite64.unitsPerOne :=
      Nat.mul_le_mul_right _ (Nat.le_of_not_lt small)
    have above := Nat.le_mul_of_pos_right (2 ^ 53) Finite64.unitsPerOne_pos
    have below : n.natAbs * Finite64.unitsPerOne < 2 ^ (64 + 1074) := by
      rw [Finite64.two_pow_add]
      exact Nat.mul_lt_mul_of_pos_right bound Finite64.unitsPerOne_pos
    have log := le_log2 units
    unfold ofInt ofRatio
    dsimp only
    rw [Nat.div_one, Nat.one_mul, if_neg (Nat.not_lt_of_le (Nat.le_trans above units))]
    generalize n.natAbs * Finite64.unitsPerOne = whole at units below log
    have nonzero : whole ≠ 0 := by omega
    have range := (Nat.log2_lt nonzero).mpr below
    have low := Nat.log2_self_le nonzero
    have high := Nat.lt_log2_self (n := whole)
    have quotient : 2 ^ 52 ≤ whole / 2 ^ (whole.log2 - 52) := by
      rw [Nat.le_div_iff_mul_le (Nat.two_pow_pos _), ← Nat.pow_add, Nat.add_sub_cancel' (by omega)]
      exact low
    have short : whole / 2 ^ (whole.log2 - 52) < 2 ^ 53 := by
      rw [Nat.div_lt_iff_lt_mul (Nat.two_pow_pos _), ← Nat.pow_add]
      rwa [show 53 + (whole.log2 - 52) = whole.log2 + 1 by omega]
    have rounded := roundEven_le whole (2 ^ (whole.log2 - 52))
    have least := div_le_roundEven whole (2 ^ (whole.log2 - 52))
    exact exists_finite_ofMantissa _ (by omega) (by omega) (.inr (by omega))
end Binary64

/-! ## Numbers of JSON -/

/-- The value of the number. -/
def Json.Number.value : Json.Number → ℚ
  | .int n _ => n
  | .float x => x.value

theorem Json.Number.exists_finite (n : Json.Number) : ∃ x, n.toBinary64 = .finite x := by
  cases n with
  | float x => exact ⟨x, rfl⟩
  | int n inRange =>
    exact Binary64.exists_finite_ofInt (by omega)

end FeatureGate
