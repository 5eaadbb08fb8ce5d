import FeatureGate.Binary64.Scaling
import FeatureGate.Proofs.Exactness

/-!
# Numerals that are read exactly

If the digits make a number of 53 bits and the power of ten is at most the 22nd, both are exact, and
scaling rounds once. So short numerals are read as the number nearest to them.
-/

namespace FeatureGate

namespace Binary64

theorem roundEven_mul_right (num den : Nat) {k : Nat} (pos : 0 < k) :
    roundEven (num * k) (den * k) = roundEven num den := by
  simp only [roundEven, Nat.mul_div_mul_right _ _ pos, Nat.mul_mod_mul_right, ← Nat.mul_assoc,
    Nat.mul_lt_mul_right pos]

/-- What a ratio is rounded to depends on its value only. -/
theorem ofRatio_mul_right (negative : Bool) (num den : Nat) {k : Nat} (pos : 0 < k) :
    ofRatio negative (num * k) (den * k) = ofRatio negative num den := by
  have units : num * k * Finite64.unitsPerOne = num * Finite64.unitsPerOne * k :=
    Nat.mul_right_comm num k Finite64.unitsPerOne
  simp only [ofRatio, units, Nat.mul_div_mul_right _ _ pos, Nat.mul_right_comm den k,
    roundEven_mul_right _ _ pos]

theorem ofRatio_whole {m k : Nat} (short : m < 2 ^ 53) (range : k ≤ 971) (negative : Bool) :
    ∃ x, ofRatio negative (m * 2 ^ k) 1 = .finite x ∧ x.negative = negative ∧
      x.magnitude = m * 2 ^ k * Finite64.unitsPerOne := by
  obtain ⟨y, magnitude⟩ := Finite64.exists_magnitude_eq short range
  refine ⟨_, ofRatio_of_magnitude Nat.one_pos ?_ negative, rfl, magnitude⟩
  rw [magnitude, Nat.mul_one]

theorem ofRatio_zero (negative : Bool) {den : Nat} (pos : 0 < den) :
    ofRatio negative 0 den = .finite (.zero negative) := by
  refine ofRatio_of_magnitude (x := .zero negative) pos ?_ negative
  simp [Finite64.magnitude, Finite64.zero]

/-- Within the range the power of ten is computed. -/
theorem ofDecimal_of_near {digits : Nat} (short : digits < 2 ^ 53) {e : Int} (near : e.natAbs ≤ 22)
    (negative : Bool) :
    ofDecimal negative digits e =
      if 0 ≤ e then ofRatio negative (digits * 10 ^ e.toNat) 1
      else ofRatio negative digits (10 ^ (-e).toNat) := by
  have count : digitCount digits ≤ 16 := by
    unfold digitCount
    split
    · omega
    · exact (Nat.length_toDigits_le_iff (by omega) (by omega)).mpr (by omega)
  have inside : ¬ e + digitCount digits < -330 := by omega
  have below : ¬ 310 < e + (digitCount digits : Int) := by omega
  by_cases none : digits = 0
  · have pos : 0 < 10 ^ (-e).toNat := Nat.pow_pos (by omega)
    simp only [ofDecimal, none, true_or, if_true, Nat.zero_mul, ofRatio_zero negative Nat.one_pos,
      ofRatio_zero negative pos, ite_self]
  · simp only [ofDecimal, none, inside, or_self, if_false, below]

end Binary64

namespace Finite64

theorem powerOfTen?_of_le {k : Nat} (small : k ≤ 22) :
    ∃ p, powerOfTen? k = some p ∧ p.negative = false ∧ p.magnitude = 10 ^ k * unitsPerOne := by
  have short : 5 ^ k < 2 ^ 53 :=
    Nat.lt_of_le_of_lt (Nat.pow_le_pow_right (by omega) small) (by decide)
  obtain ⟨p, found, positive, magnitude⟩ := Binary64.ofRatio_whole short (k := k) (by omega) false
  have ten : 5 ^ k * 2 ^ k = 10 ^ k := (Nat.mul_pow 5 2 k).symm
  rw [ten] at found magnitude
  refine ⟨p, ?_, positive, magnitude⟩
  rw [powerOfTen?, if_pos (by omega), found]
  rfl

/-- A product of integers is rounded as the integer that it is. -/
theorem mul_of_whole {x y : Finite64} {m n : Nat} (hx : x.magnitude = m * unitsPerOne)
    (hy : y.magnitude = n * unitsPerOne) (positive : y.negative = false) :
    x.mul y = .ofRatio x.negative (m * n) 1 := by
  have one : unitsPerOne ^ 2 = 1 * (unitsPerOne * unitsPerOne) := by
    rw [Nat.pow_two, Nat.one_mul]
  rw [mul, hx, hy, positive, Bool.bne_false, Nat.mul_mul_mul_comm, one,
    Binary64.ofRatio_mul_right _ _ _ (Nat.mul_pos unitsPerOne_pos unitsPerOne_pos)]

/-- A quotient of integers is rounded as the ratio that it is. -/
theorem div_of_whole {x y : Finite64} {m n : Nat} (hx : x.magnitude = m * unitsPerOne)
    (hy : y.magnitude = n * unitsPerOne) (positive : y.negative = false) :
    x.div y = .ofRatio x.negative m n := by
  rw [div, hx, hy, positive, Bool.bne_false, Binary64.ofRatio_mul_right _ _ _ unitsPerOne_pos]

theorem eq_zero_of_mantissa {x : Finite64} (none : x.mantissa = 0) : x = .zero x.negative := by
  obtain ⟨negative, mantissa, exponent, normal⟩ := x
  obtain rfl : mantissa = 0 := none
  obtain rfl : exponent = 0 := normal.2.2.resolve_right (by omega)
  rfl

/-- An integer times an exact power of ten is rounded once. -/
theorem scale?_of_near {x : Finite64} {digits : Nat} (whole : x.magnitude = digits * unitsPerOne)
    {e : Int} (near : e.natAbs ≤ 22) :
    x.scale? e =
      (if 0 ≤ e then Binary64.ofRatio x.negative (digits * 10 ^ e.toNat) 1
      else Binary64.ofRatio x.negative digits (10 ^ (-e).toNat)).finite? := by
  unfold scale?
  by_cases none : x.mantissa = 0
  · have zero : digits = 0 := by
      rw [magnitude_eq_zero_iff.mpr none] at whole
      exact (Nat.mul_eq_zero.mp whole.symm).resolve_right (Nat.ne_of_gt unitsPerOne_pos)
    have itself : x = .zero x.negative := eq_zero_of_mantissa none
    rw [if_pos none, zero, Nat.zero_mul, Binary64.ofRatio_zero _ Nat.one_pos,
      Binary64.ofRatio_zero _ (Nat.pow_pos (by omega)), ite_self, ← itself]
    rfl
  · rw [if_neg none]
    by_cases up : 0 ≤ e
    · obtain ⟨p, found, positive, magnitude⟩ := powerOfTen?_of_le (k := e.toNat) (by omega)
      rw [if_pos up, if_pos up, found, ← mul_of_whole whole magnitude positive]
      exact Option.bind_some p _
    · obtain ⟨p, found, positive, magnitude⟩ := powerOfTen?_of_le (k := (-e).toNat) (by omega)
      rw [if_neg up, if_neg up, if_pos (by omega), found, ← div_of_whole whole magnitude positive]
      exact Option.bind_some p _

end Finite64

namespace Numeral

theorem le_ofDigitChars (cs : List Char) (n : Nat) : n ≤ Nat.ofDigitChars 10 cs n := by
  induction cs generalizing n with
  | nil => exact Nat.le_refl n
  | cons c cs ih =>
    rw [Nat.ofDigitChars_cons]
    have rest := ih (10 * n + (c.toNat - '0'.toNat))
    omega

theorem takeDigits_of_lt {cs : List Char} {n : Nat} (fits : Nat.ofDigitChars 10 cs n < 2 ^ 64) :
    takeDigits n cs = (Nat.ofDigitChars 10 cs n, []) := by
  induction cs generalizing n with
  | nil => rfl
  | cons c cs ih =>
    rw [Nat.ofDigitChars_cons] at fits ⊢
    have next := Nat.lt_of_le_of_lt (le_ofDigitChars cs _) fits
    rw [takeDigits, if_pos next, ih fits]

/-- Digits that fit are all kept. -/
theorem significand_of_lt {n : Numeral} (fits : n.digits < 2 ^ 64) :
    n.significand = (n.digits, n.exponent - n.fraction.length) := by
  have parts : n.digits = Nat.ofDigitChars 10 n.fraction (Nat.ofDigitChars 10 n.whole 0) :=
    Nat.ofDigitChars_append 0
  rw [parts] at fits ⊢
  have whole := Nat.lt_of_le_of_lt (le_ofDigitChars n.fraction _) fits
  unfold significand
  rw [takeDigits_of_lt whole]
  dsimp only
  rw [takeDigits_of_lt fits]
  simp

/-- A short numeral is read as the number nearest to it. -/
theorem scaled?_of_short {n : Numeral} (short : n.digits < 2 ^ 53)
    (near : (n.exponent - n.fraction.length).natAbs ≤ 22) (negative : Bool) :
    n.scaled? negative = (n.toBinary64 negative).finite? := by
  have one : n.digits * 2 ^ 0 = n.digits := Nat.mul_one n.digits
  obtain ⟨x, rounded, sign, whole⟩ := Binary64.ofRatio_whole short (k := 0) (by omega) negative
  rw [one] at rounded whole
  have scaled : n.scaled? negative = x.scale? (n.exponent - n.fraction.length) := by
    unfold scaled?
    rw [significand_of_lt (by omega)]
    dsimp only
    rw [rounded]
    rfl
  rw [scaled, Finite64.scale?_of_near whole near, sign, toBinary64,
    Binary64.ofDecimal_of_near short near]

/-- Seventeen digits are rounded twice: this is read as one hundred. -/
example : scaled? ⟨['1', '0', '0'], "00000000000001".toList, 0⟩ false ≠
    (toBinary64 ⟨['1', '0', '0'], "00000000000001".toList, 0⟩ false).finite? := by decide +kernel

end Numeral

end FeatureGate
