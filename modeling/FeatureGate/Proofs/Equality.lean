import FeatureGate.Proofs.Comparison
import FeatureGate.Proofs.Reading

/-!
# Configured equality

A config equals an attribute by value as far as it was read without rounding. An integer from
`2 ^ 63` on that is no multiple of `2 ^ 11` was rounded; equality fails of such a config and itself,
and inequality holds.
-/

namespace FeatureGate

namespace Comparand

variable {v : Json} {c : Comparand}

theorem sameScalar_self {v : Json} {s : Scalar} (h : Scalar.ofJson? v = some s) :
    v.SameScalar v := by
  cases v with
  | bool | number | string => exact ⟨_, rfl, rfl⟩
  | null | array | object => cases h

theorem sameValue_self (h : ofJson v = .ok c) : v.SameValue v := by
  rcases ofJson_cases h with ⟨s, hs, -⟩ | ⟨vs, ss, rfl, -, items⟩
  · have self := sameScalar_self hs
    cases v with
    | array => cases hs
    | _ => exact self
  · change List.Forall₂ Json.SameScalar vs vs
    clear h
    induction items with
    | nil => exact .nil
    | cons head _ ih => exact .cons (sameScalar_self head) ih

/-- A config equals itself exactly if nothing in it was rounded. -/
theorem equals_self_iff (h : ofJson v = .ok c) : c.equals v = true ↔ v.Exact := by
  rcases ofJson_cases h with ⟨s, hs, rfl⟩ | ⟨vs, ss, rfl, rfl, items⟩
  · rw [equals, Scalar.equals_self_iff hs]
    cases v with
    | array => cases hs
    | _ => rfl
  · change matchItems ss vs = true ↔ ∀ v ∈ vs, v.Kept
    clear h
    induction items with
    | nil => simp [matchItems]
    | cons head _ ih =>
      simp only [matchItems, Bool.and_eq_true, Scalar.equals_self_iff head, ih,
        List.forall_mem_cons]

/-- A config in which nothing was rounded equals what has the same value. -/
theorem equals_iff_sameValue (h : ofJson v = .ok c) (exact : v.Exact) (w : Json) :
    c.equals w = true ↔ v.SameValue w := by
  rcases ofJson_cases h with ⟨s, hs, rfl⟩ | ⟨vs, ss, rfl, rfl, items⟩
  · have kept : v.Kept := by
      cases v with
      | array => cases hs
      | _ => exact exact
    rw [equals, Scalar.equals_iff_sameScalar hs kept]
    cases v with
    | array => cases hs
    | _ => rfl
  · cases w with
    | array ws =>
      have both := (List.forall₂_and_left vs ss).mpr ⟨exact, items⟩
      have each := both.imp fun v s item =>
        Scalar.equals_iff_sameScalar (v := v) (s := s) item.2 item.1
      exact matchItems_iff each
    | _ => simp [equals, Json.SameValue, Json.SameScalar, Json.denotation?]

end Comparand

/-- The config of a condition. -/
def Condition.source (property op : String) (value : Json) : Json :=
  .object [("op", .string op), ("property", .string property), ("value", value)]

theorem Condition.compile_source {v : Json} {c : Comparand} (h : Comparand.ofJson v = .ok c)
    (property op : String) :
    (compile (source property op v)).outcome = .ok ⟨property, .ofName op, c⟩ := by
  have present : v ≠ .null := by
    rintro rfl
    cases h
  have parts : parts? (source property op v) = some (property, op, v) :=
    parts?_eq_some_iff.mpr ⟨rfl, rfl, rfl, present⟩
  exact compile_eq_ok_iff.mpr ⟨op, v, parts, rfl, h⟩

namespace Condition

variable {v : Json} {c : Comparand} {property : String} {ctx : Context}

/-- A condition that asks for the value of an attribute, read from that very value. -/
theorem holds_equal_self_iff (h : Comparand.ofJson v = .ok c)
    (present : ctx.get? property = some v) :
    (Condition.mk property .equal c).holds ctx = true ↔ v.Exact := by
  rw [holds, present, ← Comparand.equals_self_iff h]
  rfl

theorem holds_notEqual_self_iff (h : Comparand.ofJson v = .ok c)
    (present : ctx.get? property = some v) :
    (Condition.mk property .notEqual c).holds ctx = true ↔ ¬ v.Exact := by
  rw [holds, present, ← Comparand.equals_self_iff h, Bool.not_eq_true, ← Bool.not_eq_true']
  rfl

end Condition

namespace Comparand

/-- Equality with a config is equality of values exactly if nothing in the config was rounded, and
then, and only then, a condition that asks for a value holds of it and one that excludes it does
not. -/
theorem equality_iff_exact {v : Json} {c : Comparand} (h : ofJson v = .ok c) :
    ((∀ w, c.equals w = true ↔ v.SameValue w) ↔ v.Exact) ∧
      ∀ property (ctx : Context), ctx.get? property = some v →
        ∃ equal notEqual,
          (Condition.compile (Condition.source property "equal" v)).outcome = .ok equal ∧
          (Condition.compile (Condition.source property "not_equal" v)).outcome = .ok notEqual ∧
          (equal.holds ctx = true ↔ v.Exact) ∧ (notEqual.holds ctx = true ↔ ¬ v.Exact) := by
  constructor
  · constructor
    · intro exact
      rw [← equals_self_iff h, exact]
      exact sameValue_self h
    · exact equals_iff_sameValue h
  · intro property ctx present
    exact ⟨_, _, Condition.compile_source h property "equal",
      Condition.compile_source h property "not_equal",
      Condition.holds_equal_self_iff h present, Condition.holds_notEqual_self_iff h present⟩

/-- The least integer that no binary64 number represents is compared exactly. -/
theorem equality_beyond_mantissa :
    ∃ c, ofJson (.number (.int (2 ^ 53 + 1) (by decide))) = .ok c ∧
      ∀ w, c.equals w = true ↔ Json.SameValue (.number (.int (2 ^ 53 + 1) (by decide))) w :=
  ⟨_, rfl, (equality_iff_exact rfl).1.mpr (.inl (by decide))⟩

/-- The greatest integer of a config. -/
def greatest : Json := .number (.int (2 ^ 64 - 1) (by decide))

theorem not_exact_greatest : ¬ greatest.Exact := by
  rintro (low | multiple)
  · exact absurd low (by decide)
  · exact absurd multiple (by decide)

/-- The greatest integer does not equal itself, and a condition that excludes it holds of it. -/
theorem greatest_not_equals_itself :
    ∃ c equal notEqual, ofJson greatest = .ok c ∧ greatest.SameValue greatest ∧
      c.equals greatest = false ∧
      (Condition.compile (Condition.source "p" "equal" greatest)).outcome = .ok equal ∧
      (Condition.compile (Condition.source "p" "not_equal" greatest)).outcome = .ok notEqual ∧
      equal.holds (.ofAttributes (.ofList [("p", greatest)])) = false ∧
      notEqual.holds (.ofAttributes (.ofList [("p", greatest)])) = true := by
  obtain ⟨c, accepted⟩ : ∃ c, ofJson greatest = .ok c := ⟨_, rfl⟩
  have present : (Context.ofAttributes (.ofList [("p", greatest)])).get? "p" = some greatest := rfl
  refine ⟨c, _, _, accepted, sameValue_self accepted, ?_,
    Condition.compile_source accepted "p" "equal",
    Condition.compile_source accepted "p" "not_equal", ?_, ?_⟩
  · rw [Bool.eq_false_iff, Ne, equals_self_iff accepted]
    exact not_exact_greatest
  · rw [Bool.eq_false_iff, Ne]
    intro holds
    exact not_exact_greatest ((Condition.holds_equal_self_iff accepted present).mp holds)
  · exact (Condition.holds_notEqual_self_iff accepted present).mpr not_exact_greatest

end Comparand

end FeatureGate
