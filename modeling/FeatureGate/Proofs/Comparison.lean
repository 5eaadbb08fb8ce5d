import FeatureGate.Proofs.Exactness
import FeatureGate.Rule.Feature
import Mathlib.Data.List.Forall2

/-!
# Comparing by value

A scalar equals an attribute if both denote the same: a truth value, a text or a rational number. A
config keeps what it denotes when it is read as a scalar, except for integers from `2 ^ 63` on that
are no multiples of `2 ^ 11`: these are rounded, and no longer equal even themselves.
-/

namespace FeatureGate

/-- What a scalar can denote. -/
inductive Denotation where
  | bool (b : Bool)
  | number (q : ℚ)
  | text (s : String)

/-- What a value denotes, if it is no list, object or null. -/
def Json.denotation? : Json → Option Denotation
  | .bool b => some (.bool b)
  | .number n => some (.number n.value)
  | .string s => some (.text s)
  | _ => none

/-- Whether two values denote the same scalar. -/
def Json.SameScalar (v w : Json) : Prop := ∃ d, v.denotation? = some d ∧ w.denotation? = some d

/-- Whether two values are the same scalar, or lists of the same scalars. -/
def Json.SameValue : Json → Json → Prop
  | .array vs, .array ws => List.Forall₂ SameScalar vs ws
  | v, w => v.SameScalar w

namespace Scalar

def denotation? : Scalar → Option Denotation
  | .bool b => some (.bool b)
  | .int n => some (.number n.toInt)
  | .float (.finite x) => some (.number x.value)
  | .float _ => none
  | .text s => some (.text s)

theorem equals_number_iff (s : Scalar) (n : Json.Number) :
    s.equals (.number n) = true ↔ s.denotation? = some (.number n.value) := by
  cases s with
  | bool | text => simp [equals, denotation?]
  | int a =>
    cases n with
    | int b => simp [equals, denotation?, Json.Number.value]
    | float y =>
      simp only [equals, denotation?, Json.Number.value, beq_iff_eq, Finite64.toInt?_eq_some_iff,
        Option.some.injEq, Denotation.number.injEq]
      exact eq_comm
  | float x =>
    cases x with
    | nan | infinity => cases n <;> simp [equals, denotation?]
    | finite x =>
      cases n with
      | int b => simp [equals, denotation?, Json.Number.value, Finite64.toInt?_eq_some_iff]
      | float y => simp [equals, denotation?, Json.Number.value, Finite64.same_iff]

/-- A scalar equals what denotes the same. -/
theorem equals_iff (s : Scalar) (v : Json) :
    s.equals v = true ↔ ∃ d, s.denotation? = some d ∧ v.denotation? = some d := by
  cases v with
  | number n => simp [equals_number_iff, Json.denotation?]
  | bool b =>
    cases s with
    | bool a =>
      simp only [equals, denotation?, Json.denotation?, beq_iff_eq, Option.some.injEq,
        exists_eq_left', Denotation.bool.injEq]
      exact eq_comm
    | float x => cases x <;> simp [equals, denotation?, Json.denotation?]
    | int | text => simp [equals, denotation?, Json.denotation?]
  | string t =>
    cases s with
    | text a =>
      simp only [equals, denotation?, Json.denotation?, beq_iff_eq, Option.some.injEq,
        exists_eq_left', Denotation.text.injEq]
      exact eq_comm
    | float x => cases x <;> simp [equals, denotation?, Json.denotation?]
    | int | bool => simp [equals, denotation?, Json.denotation?]
  | null | array | object =>
    cases s with
    | float x => cases x <;> simp [equals, Json.denotation?]
    | _ => simp [equals, Json.denotation?]

end Scalar

/-! ## Reading a config -/

/-- Whether a number keeps its value as a scalar. -/
def Json.Number.Kept : Json.Number → Prop
  | .int n _ => n < 2 ^ 63 ∨ 2 ^ 11 ∣ n
  | .float _ => True

/-- Whether a value keeps what it denotes as a scalar. -/
def Json.Kept : Json → Prop
  | .number n => n.Kept
  | _ => True

/-- Whether a value keeps what it denotes, and a list what its items denote. -/
def Json.Exact : Json → Prop
  | .array vs => ∀ v ∈ vs, v.Kept
  | v => v.Kept

namespace Scalar

theorem denotation?_ofNumber {n : Json.Number} (kept : n.Kept) :
    (ofNumber n).denotation? = some (.number n.value) := by
  cases n with
  | float x => rfl
  | int n inRange =>
    by_cases low : n < 2 ^ 63
    · simp only [ofNumber, low, if_true, denotation?, Json.Number.value,
        Int64.toInt_ofInt_of_le inRange.1 low]
    · have dvd := kept.resolve_left low
      obtain ⟨x, hx⟩ := (Finite64.exists_value_iff_dvd (by omega) inRange.2).mpr dvd
      obtain ⟨y, rounded, value⟩ := Binary64.ofInt_of_value hx
      simp only [ofNumber, low, if_false, Json.Number.toBinary64, rounded, denotation?, value,
        Json.Number.value]

theorem denotation?_ofNumber_ne {n : Json.Number} (rounded : ¬ n.Kept) :
    (ofNumber n).denotation? ≠ some (.number n.value) := by
  cases n with
  | float x => exact absurd trivial rounded
  | int n inRange =>
    obtain ⟨high, odd⟩ := not_or.mp rounded
    simp only [ofNumber, high, if_false, Json.Number.toBinary64]
    cases nearest : Binary64.ofInt n with
    | nan | infinity => simp [denotation?]
    | finite x =>
      intro same
      simp only [denotation?, Json.Number.value, Option.some.injEq, Denotation.number.injEq] at same
      exact odd ((Finite64.exists_value_iff_dvd (by omega) inRange.2).mp ⟨x, same⟩)

theorem denotation?_ofJson {v : Json} {s : Scalar} (h : ofJson? v = some s) (kept : v.Kept) :
    s.denotation? = v.denotation? := by
  cases v with
  | bool | string =>
    obtain rfl := Option.some.inj h
    rfl
  | number n =>
    obtain rfl := Option.some.inj h
    exact denotation?_ofNumber kept
  | null | array | object => cases h

/-- What is kept equals what denotes the same. -/
theorem equals_iff_sameScalar {v : Json} {s : Scalar} (h : ofJson? v = some s) (kept : v.Kept)
    (w : Json) : s.equals w = true ↔ v.SameScalar w := by
  rw [equals_iff, denotation?_ofJson h kept]
  exact Iff.rfl

/-- A value equals itself exactly if it is kept. -/
theorem equals_self_iff {v : Json} {s : Scalar} (h : ofJson? v = some s) :
    s.equals v = true ↔ v.Kept := by
  constructor
  · intro equal
    cases v with
    | number n =>
      obtain rfl := Option.some.inj h
      by_contra rounded
      exact denotation?_ofNumber_ne rounded ((equals_number_iff _ n).mp equal)
    | _ => trivial
  · intro kept
    rw [equals_iff, denotation?_ofJson h kept]
    cases v with
    | bool | number | string => exact ⟨_, rfl, rfl⟩
    | null | array | object => cases h

end Scalar

namespace Comparand

/-- The items of a list are read one by one. -/
theorem forall₂_of_scalarsOfItems {vs : List Json} {ss : List Scalar}
    (h : scalarsOfItems vs = .ok ss) :
    List.Forall₂ (fun v s => Scalar.ofJson? v = some s) vs ss := by
  induction vs generalizing ss with
  | nil =>
    obtain rfl := Except.ok.inj h
    exact .nil
  | cons v vs ih =>
    unfold scalarsOfItems at h
    split at h
    · cases h
    · rename_i s found
      cases rest : scalarsOfItems vs with
      | error e => simp [rest, Except.map] at h
      | ok ss' =>
        simp only [rest, Except.map, Except.ok.injEq] at h
        subst h
        exact .cons found (ih rest)

/-- An accepted config is a scalar or a list of scalars. -/
theorem ofJson_cases {v : Json} {c : Comparand} (h : ofJson v = .ok c) :
    (∃ s, Scalar.ofJson? v = some s ∧ c = .scalar s) ∨
      ∃ vs ss, v = .array vs ∧ c = .list ss ∧
        List.Forall₂ (fun v s => Scalar.ofJson? v = some s) vs ss := by
  cases v with
  | array vs =>
    right
    cases items : scalarsOfItems vs with
    | error e => simp [ofJson, items, Except.map] at h
    | ok ss =>
      simp only [ofJson, items, Except.map, Except.ok.injEq] at h
      exact ⟨vs, ss, rfl, h.symm, forall₂_of_scalarsOfItems items⟩
  | null | object => simp [ofJson, Scalar.ofJson?] at h
  | bool | number | string =>
    left
    simp only [ofJson, Scalar.ofJson?, Except.ok.injEq] at h
    exact ⟨_, rfl, h.symm⟩

/-- Lists are equal item by item, whatever decides the equality of an item. -/
theorem matchItems_iff {α : Type} {equal : α → Json → Prop} {as : List α} {ss : List Scalar}
    (h : List.Forall₂ (fun a s => ∀ w, s.equals w = true ↔ equal a w) as ss) {ws : List Json} :
    matchItems ss ws = true ↔ List.Forall₂ equal as ws := by
  induction h generalizing ws with
  | nil => cases ws <;> simp [matchItems]
  | cons head _ ih =>
    cases ws with
    | nil => simp [matchItems]
    | cons w ws => simp [matchItems, head, ih]

end Comparand

/-! ## Values that no comparison tells apart -/

/-- What the items of a list denote. -/
def Json.itemDenotations? : Json → Option (List (Option Denotation))
  | .array vs => some (vs.map denotation?)
  | _ => none

/-- Whether two values denote the same, and so do their items. -/
structure Json.Indistinct (v w : Json) : Prop where
  value : v.denotation? = w.denotation?
  items : v.itemDenotations? = w.itemDenotations?

/-- Lists whose items denote the same are indistinct. -/
theorem Json.indistinct_array {vs ws : List Json}
    (h : List.Forall₂ (fun v w => v.denotation? = w.denotation?) vs ws) :
    (array vs).Indistinct (array ws) := by
  refine ⟨rfl, congrArg some ?_⟩
  rw [← List.forall₂_eq_eq_eq, List.forall₂_map_left_iff, List.forall₂_map_right_iff]
  exact h

theorem Scalar.equals_congr (s : Scalar) {v w : Json} (h : v.denotation? = w.denotation?) :
    s.equals v = s.equals w := by
  rw [Bool.eq_iff_iff, equals_iff, equals_iff, h]

namespace Comparand

variable {v w : Json}

theorem matchItems_congr {vs ws : List Json}
    (h : vs.map Json.denotation? = ws.map Json.denotation?) (ss : List Scalar) :
    matchItems ss vs = matchItems ss ws := by
  induction vs generalizing ws ss with
  | nil =>
    obtain rfl := List.map_eq_nil_iff.mp h.symm
    rfl
  | cons v vs ih =>
    cases ws with
    | nil => cases h
    | cons w ws =>
      obtain ⟨head, tail⟩ := List.cons.inj h
      cases ss with
      | nil => rfl
      | cons s ss => rw [matchItems, matchItems, s.equals_congr head, ih tail]

theorem equals_congr (c : Comparand) (h : v.Indistinct w) : c.equals v = c.equals w := by
  cases c with
  | scalar s => exact s.equals_congr h.value
  | list ss =>
    have items := h.items
    cases v with
    | array vs =>
      cases w with
      | array ws => exact matchItems_congr (Option.some.inj items) ss
      | _ => cases items
    | _ =>
      cases w with
      | array => cases items
      | _ => rfl

theorem contains?_congr (c : Comparand) (h : v.Indistinct w) : c.contains? v = c.contains? w := by
  simp only [contains?, fun s : Scalar => s.equals_congr h.value]

end Comparand

/-- A condition accepts both or neither of two indistinct attributes. -/
theorem Condition.accepts_congr (c : Condition) {v w : Json} (h : v.Indistinct w) :
    c.accepts v = c.accepts w := by
  rw [accepts, accepts, c.value.equals_congr h, c.value.contains?_congr h]

/-- A condition holds of both or neither of two contexts that have indistinct attributes of its
property, or none. -/
theorem Condition.holds_congr (c : Condition) {a b : Context}
    (h : Option.Rel Json.Indistinct (a.get? c.property) (b.get? c.property)) :
    c.holds a = c.holds b := by
  unfold holds
  generalize a.get? c.property = v at h
  generalize b.get? c.property = w at h
  cases h with
  | none => rfl
  | some value => exact c.accepts_congr value

/-- A segment reads the conditions that it lists and, under a rollout, the bucket. -/
theorem Segment.admits_congr (s : Segment) {a b : Context}
    (conditions : ∀ c ∈ s.conditions, c.holds a = c.holds b)
    (rollout : ∀ r, s.rollout = some r → rolloutAdmits r a.bucket = rolloutAdmits r b.bucket) :
    s.admits a = s.admits b := by
  have all : s.conditions.all (·.holds a) = s.conditions.all (·.holds b) := by
    rw [Bool.eq_iff_iff, List.all_eq_true, List.all_eq_true]
    exact forall₂_congr fun c hc => by rw [conditions c hc]
  unfold admits
  rw [all]
  cases gate : s.rollout with
  | none => rfl
  | some r =>
    dsimp only
    rw [rollout r gate]

end FeatureGate
