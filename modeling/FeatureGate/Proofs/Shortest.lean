import FeatureGate.Binary64.Shortest
import FeatureGate.Proofs.Exactness
import Mathlib.Tactic.Linarith

/-!
# Shortest decimals

Intervals of numbers of different magnitude share no point: of two neighbours at most one has an
even mantissa and owns the point between them. The shortest decimal of a number lies in its
interval, so it fixes the number up to its sign.
-/

namespace FeatureGate

/-- The value of the decimal. -/
def Decimal.value (d : Decimal) : ℚ := d.digits * 10 ^ d.exponent

namespace Finite64

namespace Interval

/-- Whether a point lies in the interval. -/
def Has (i : Interval) (q : ℚ) : Prop :=
  if i.closed then i.low ≤ q * i.den ∧ q * i.den ≤ i.high
  else i.low < q * i.den ∧ q * i.den < i.high

theorem has_iff_contains (i : Interval) (num : Nat) {den : Nat} (pos : 0 < den) :
    i.Has (num / den) ↔ i.contains num den = true := by
  have positive : (0 : ℚ) < den := Nat.cast_pos.mpr pos
  unfold Has contains
  rw [div_mul_eq_mul_div]
  split
  · simp only [Bool.and_eq_true, decide_eq_true_eq, le_div_iff₀ positive, div_le_iff₀ positive]
    exact_mod_cast Iff.rfl
  · simp only [Bool.and_eq_true, decide_eq_true_eq, lt_div_iff₀ positive, div_lt_iff₀ positive]
    exact_mod_cast Iff.rfl

/-! ## Grid points -/

variable {i : Interval} {tie : Tie}

theorem contains_of_gridPoint? {num den p : Nat} (h : i.gridPoint? tie num den = some p) :
    i.contains (p * num) den = true := by
  unfold gridPoint? at h
  dsimp only at h
  split at h
  · rename_i below above
    rw [Option.some.injEq] at h
    subst h
    split
    · exact below
    · exact above
  · rename_i below _
    obtain rfl := Option.some.inj h
    exact below
  · rename_i _ above
    obtain rfl := Option.some.inj h
    exact above
  · cases h

theorem has_of_decimalAt? {exponent : Int} {d : Decimal}
    (h : i.decimalAt? tie exponent = some d) : i.Has d.value := by
  unfold decimalAt? at h
  obtain ⟨p, hp, rfl⟩ := Option.map_eq_some_iff.mp h
  split at hp
  · rename_i whole
    have point := (i.has_iff_contains _ Nat.one_pos).mpr (contains_of_gridPoint? hp)
    lift exponent to ℕ using whole
    simpa [Decimal.value] using point
  · rename_i fraction
    have point := (i.has_iff_contains _ (Nat.pow_pos (by decide))).mpr (contains_of_gridPoint? hp)
    obtain ⟨k, hk⟩ := Int.eq_ofNat_of_zero_le (a := -exponent) (by omega)
    have same : exponent = -(k : Int) := by omega
    subst same
    simpa [Decimal.value, div_eq_mul_inv] using point

theorem has_of_coarsest? {finest : Int} {steps : Nat} {d : Decimal}
    (h : i.coarsest? tie finest steps = some d) : i.Has d.value := by
  induction steps with
  | zero => exact has_of_decimalAt? h
  | succ steps ih =>
    rw [coarsest?] at h
    split at h
    · rename_i hit
      obtain rfl := Option.some.inj h
      exact has_of_decimalAt? hit
    · exact ih h

end Interval

variable {x y : Finite64}

/-! ## The shortest decimal -/

theorem interval_den (x : Finite64) : x.interval.den = 4 * unitsPerOne := by
  have split : ∀ e n : Nat, n = 2 + e → 2 ^ n = 4 * 2 ^ e := by
    rintro e n rfl
    exact Nat.pow_add 2 2 e
  rw [unitsPerOne, ← split 1074 1076 rfl]
  rfl

theorem interval_value (x : Finite64) : x.interval.value = 4 * x.magnitude := Nat.mul_assoc ..

theorem exactDecimal_value (x : Finite64) : x.exactDecimal.value * unitsPerOne = x.magnitude := by
  unfold exactDecimal magnitude Decimal.value
  split
  · rename_i large
    rw [two_pow_eq large, zpow_zero]
    push_cast
    ring
  · rename_i small
    obtain ⟨k, hk⟩ := Nat.exists_eq_add_of_le (Nat.le_of_not_le small)
    have exponent : (x.exponent : Int) - 1074 = -(k : Int) := by omega
    have one : unitsPerOne = 2 ^ k * 2 ^ x.exponent := by
      rw [unitsPerOne_eq (Nat.le_of_not_le small), hk, Nat.add_sub_cancel_left]
    have ten : (5 : ℚ) ^ k * 2 ^ k = 10 ^ k := by rw [← mul_pow]; norm_num
    have nonzero : (10 : ℚ) ^ k ≠ 0 := pow_ne_zero k (by norm_num)
    dsimp only
    rw [exponent, hk, Nat.add_sub_cancel_left, one, zpow_neg, zpow_natCast]
    push_cast
    calc (x.mantissa : ℚ) * 5 ^ k * (10 ^ k)⁻¹ * (2 ^ k * 2 ^ x.exponent)
        = x.mantissa * 2 ^ x.exponent * ((5 ^ k * 2 ^ k) * (10 ^ k)⁻¹) := by ring
      _ = x.mantissa * 2 ^ x.exponent := by rw [ten, mul_inv_cancel₀ nonzero, mul_one]

theorem interval_has_exactDecimal (x : Finite64) : x.interval.Has x.exactDecimal.value := by
  have point : x.exactDecimal.value * x.interval.den = x.interval.value := by
    rw [interval_den, interval_value, Nat.cast_mul, Nat.cast_mul, ← exactDecimal_value]
    ring
  have scale := Nat.two_pow_pos x.exponent
  rw [Interval.Has, point]
  unfold interval
  dsimp only
  split
  · constructor
    · exact Nat.cast_le.mpr (Nat.mul_le_mul_right _ (Nat.sub_le ..))
    · exact Nat.cast_le.mpr (Nat.mul_le_mul_right _ (Nat.le_add_right ..))
  · rename_i odd
    rw [beq_iff_eq] at odd
    constructor
    · exact Nat.cast_lt.mpr (Nat.mul_lt_mul_of_pos_right (by split <;> omega) scale)
    · exact Nat.cast_lt.mpr (Nat.mul_lt_mul_of_pos_right (by omega) scale)

/-- The shortest decimal rounds to the number. -/
theorem interval_has_shortest (x : Finite64) (tie : Tie) :
    x.interval.Has (x.shortest tie).value := by
  unfold shortest
  dsimp only
  cases h : x.interval.coarsest? tie x.exactDecimal.exponent _ with
  | none => exact x.interval_has_exactDecimal
  | some d => exact Interval.has_of_coarsest? h

theorem interval_has_zero (h : x.mantissa = 0) : x.interval.Has 0 := by
  have closed : x.interval.closed = true := by
    change (x.mantissa % 2 == 0) = true
    rw [h]
    rfl
  have low : x.interval.low = 0 := by
    change (4 * x.mantissa - _) * _ = 0
    rw [h, Nat.mul_zero, Nat.zero_sub, Nat.zero_mul]
  rw [Interval.Has, if_pos closed, zero_mul, low]
  exact ⟨le_of_eq Nat.cast_zero, Nat.cast_nonneg _⟩

/-! ## Neighbours -/

theorem high_le_low (h : x.magnitude < y.magnitude) :
    x.interval.high ≤ y.interval.low ∧
      (x.interval.closed = true → y.interval.closed = true →
        x.interval.high < y.interval.low) := by
  have orderly := exponent_le (Nat.le_of_lt h)
  have short := x.normal.1
  unfold interval
  dsimp only
  rcases Nat.eq_or_lt_of_le orderly with same | less
  · have mantissa : x.mantissa < y.mantissa := by
      rw [magnitude, magnitude, same] at h
      exact Nat.lt_of_mul_lt_mul_right h
    have lower : ¬ (y.mantissa = 2 ^ 52 ∧ 0 < y.exponent) := by
      rintro ⟨least, positive⟩
      have full := x.normal.2.2
      omega
    rw [if_neg lower, same]
    constructor
    · exact Nat.mul_le_mul_right _ (by omega)
    · intro evenX evenY
      rw [beq_iff_eq] at evenX evenY
      exact Nat.mul_lt_mul_of_pos_right (by omega) (Nat.two_pow_pos _)
  · have full : 2 ^ 52 ≤ y.mantissa := by
      have := y.normal.2.2
      omega
    have step : (2 ^ 55 - 2) * 2 ^ x.exponent ≤
        (4 * y.mantissa - if y.mantissa = 2 ^ 52 ∧ 0 < y.exponent then 1 else 2) *
          2 ^ y.exponent := by
      calc (2 ^ 55 - 2) * 2 ^ x.exponent = (2 ^ 54 - 1) * 2 ^ (x.exponent + 1) := by
            rw [Nat.pow_succ]; ring
        _ ≤ _ := Nat.mul_le_mul (by split <;> omega) (Nat.pow_le_pow_right (by decide) less)
    constructor
    · exact Nat.le_trans (Nat.mul_le_mul_right _ (by omega)) step
    · intro evenX _
      rw [beq_iff_eq] at evenX
      exact Nat.lt_of_lt_of_le
        (Nat.mul_lt_mul_of_pos_right (by omega) (Nat.two_pow_pos _)) step

theorem lt_of_has {p q : ℚ} (h : x.magnitude < y.magnitude) (hp : x.interval.Has p)
    (hq : y.interval.Has q) : p < q := by
  obtain ⟨apart, strictly⟩ := high_le_low h
  have apart : (x.interval.high : ℚ) ≤ y.interval.low := Nat.cast_le.mpr apart
  have den : (0 : ℚ) < x.interval.den := by
    rw [interval_den]
    exact_mod_cast Nat.mul_pos (by decide) unitsPerOne_pos
  have same : y.interval.den = x.interval.den := by rw [interval_den, interval_den]
  apply lt_of_mul_lt_mul_of_nonneg_right (a := (x.interval.den : ℚ)) _ den.le
  rw [Interval.Has] at hp hq
  rw [same] at hq
  split at hp
  · rename_i closed
    split at hq
    · rename_i closed'
      have strictly : (x.interval.high : ℚ) < y.interval.low :=
        Nat.cast_lt.mpr (strictly closed closed')
      linarith
    · linarith
  · split at hq <;> linarith

/-- A point rounds to one number at most, up to the sign. -/
theorem magnitude_eq_of_has {q : ℚ} (hx : x.interval.Has q) (hy : y.interval.Has q) :
    x.magnitude = y.magnitude := by
  rcases Nat.lt_trichotomy x.magnitude y.magnitude with less | same | more
  · exact absurd (lt_of_has less hx hy) (lt_irrefl q)
  · exact same
  · exact absurd (lt_of_has more hy hx) (lt_irrefl q)

end Finite64

end FeatureGate
