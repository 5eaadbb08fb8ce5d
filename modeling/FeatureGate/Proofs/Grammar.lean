import FeatureGate.Proofs.Reading

/-!
# The grammar of configs

Which configs a feature can be read from, said by their fields alone. The same configs are those
that pass a list of checks, one for each fragment and in the order of the fragments: a list before
its elements, and in a segment the conditions before the name and the rollout.
-/

namespace FeatureGate

/-- The name of the type that has the shape. -/
def FieldShape.typeName : FieldShape → String
  | .string => "string"
  | .number => "number"
  | .sequence => "array"

namespace Config

/-! ## The grammar -/

/-- A field holds what is there and not null. -/
def Holds (config : Json) (field : String) (v : Json) : Prop :=
  config.member? field = some v ∧ v ≠ .null

inductive IsScalar : Json → Prop where
  | bool (b : Bool) : IsScalar (.bool b)
  | number (n : Json.Number) : IsScalar (.number n)
  | string (s : String) : IsScalar (.string s)

inductive IsComparand : Json → Prop where
  | scalar (v : Json) (h : IsScalar v) : IsComparand v
  | list (vs : List Json) (h : ∀ v ∈ vs, IsScalar v) : IsComparand (.array vs)

structure IsCondition (d : Json) : Prop where
  mapping : d.isObject = true
  property : ∃ s, Holds d "property" (.string s)
  op : ∃ s, Holds d "op" (.string s)
  value : ∃ v, Holds d "value" v ∧ IsComparand v

/-- The fields of a segment may all be absent. -/
structure IsSegment (s : Json) : Prop where
  conditions : ∀ v, Holds s "conditions" v → ∃ ds, v = .array ds ∧ ∀ d ∈ ds, IsCondition d
  name : ∀ v, Holds s "name" v → ∃ t, v = .string t
  rollout : ∀ v, Holds s "rollout" v → ∃ n, v = .number n ∧ 0 ≤ n.value ∧ n.value ≤ 100

/-- Elements that are no mappings are segments without fields. -/
structure IsFeature (c : Json) : Prop where
  segments : ∀ v, Holds c "segments" v →
    ∃ ss, v = .array ss ∧ ∀ s ∈ ss, s.isObject = true → IsSegment s

variable {config : Json} {field : String}

theorem holds_iff_present? {v : Json} : Holds config field v ↔ present? config field = some v :=
  present?_eq_some_iff.symm

theorem isObject_of_holds {v : Json} (h : Holds config field v) : config.isObject = true := by
  cases config with
  | object => rfl
  | _ => cases h.1

/-! ## Checks -/

/-- One check of a config, with all that it looks at. -/
inductive Check where
  /-- The type that a field should have and the one it has. -/
  | shape (field : String) (expected : FieldShape) (got : String)
  | condition (d : Json)
  | percentage (rollout : Json.Number) (segment : String)

/-- How a message about a field begins. -/
def fieldOpening (field : String) : String := s!"Invalid value for field '{field}': "

namespace Check

def Passes : Check → Prop
  | .shape _ expected got => got = expected.typeName
  | .condition d => IsCondition d
  | .percentage rollout _ => 0 ≤ rollout.value ∧ rollout.value ≤ 100

/-- The error of the check, should it fail. -/
def error : Check → ConfigError
  | .shape field expected got => .wrongType field expected got
  | .condition d => .invalidCondition d
  | .percentage rollout segment => .rolloutOutside rollout.toBinary64 segment

/-- How the message about a failed check begins: with the field, or with the whole condition. -/
def opening : Check → String
  | .shape field _ _ => fieldOpening field
  | .condition d => s!"Condition with config {d.render} is invalid."
  | .percentage _ _ => fieldOpening "rollout"

end Check

/-- The check that a field has its type; an absent one is not checked. -/
def fieldChecks (config : Json) (field : String) (expected : FieldShape) : List Check :=
  (present? config field).toList.map fun v => .shape field expected v.typeName

/-- The name that a message about a segment gives. -/
def nameOf (s : Json) : String :=
  match present? s "name" with
  | some (.string t) => t
  | _ => Segment.defaultName

def percentageChecks (s : Json) : List Check :=
  match present? s "rollout" with
  | some (.number n) => [.percentage n (nameOf s)]
  | _ => []

def segmentChecks (s : Json) : List Check :=
  fieldChecks s "conditions" .sequence ++ ((elements s "conditions").map .condition ++
    (fieldChecks s "name" .string ++ (fieldChecks s "rollout" .number ++ percentageChecks s)))

/-- The checks of a config, in their order. -/
def checks (c : Json) : List Check :=
  fieldChecks c "segments" .sequence ++ (elements c "segments").flatMap segmentChecks

/-! ## The grammar is what the checks accept -/

theorem typeName_eq_string_iff {v : Json} :
    v.typeName = FieldShape.string.typeName ↔ ∃ t, v = .string t := by
  cases v <;> simp [Json.typeName, FieldShape.typeName]

theorem typeName_eq_number_iff {v : Json} :
    v.typeName = FieldShape.number.typeName ↔ ∃ n, v = .number n := by
  cases v <;> simp [Json.typeName, FieldShape.typeName]

theorem typeName_eq_sequence_iff {v : Json} :
    v.typeName = FieldShape.sequence.typeName ↔ ∃ vs, v = .array vs := by
  cases v <;> simp [Json.typeName, FieldShape.typeName]

theorem passes_fieldChecks_iff {expected : FieldShape} :
    (∀ k ∈ fieldChecks config field expected, k.Passes) ↔
      ∀ v, Holds config field v → v.typeName = expected.typeName := by
  simp only [holds_iff_present?, fieldChecks, List.mem_map, Option.mem_toList]
  constructor
  · intro passed v found
    exact passed (.shape field expected v.typeName) ⟨v, found, rfl⟩
  · rintro same _ ⟨v, found, rfl⟩
    exact same v found

/-- A field that holds a list if anything, and nothing but good elements. -/
theorem passes_elements_iff {good : Json → Prop} :
    ((∀ k ∈ fieldChecks config field .sequence, k.Passes) ∧ ∀ v ∈ elements config field, good v) ↔
      ∀ v, Holds config field v → ∃ vs, v = .array vs ∧ ∀ w ∈ vs, good w := by
  rw [passes_fieldChecks_iff]
  constructor
  · rintro ⟨shape, each⟩ v held
    obtain ⟨vs, rfl⟩ := typeName_eq_sequence_iff.mp (shape v held)
    rw [elements, held.1] at each
    exact ⟨vs, rfl, each⟩
  · intro fits
    refine ⟨?_, ?_⟩
    · intro v held
      obtain ⟨vs, rfl, -⟩ := fits v held
      rfl
    · unfold elements
      split
      · rename_i vs found
        obtain ⟨vs', same, each⟩ := fits (.array vs) ⟨found, Json.noConfusion⟩
        cases same
        exact each
      · simp

theorem passes_rollout_iff {s : Json} :
    ((∀ k ∈ fieldChecks s "rollout" .number, k.Passes) ∧ ∀ k ∈ percentageChecks s, k.Passes) ↔
      ∀ v, Holds s "rollout" v → ∃ n, v = .number n ∧ 0 ≤ n.value ∧ n.value ≤ 100 := by
  rw [passes_fieldChecks_iff]
  constructor
  · rintro ⟨shape, inside⟩ v held
    obtain ⟨n, rfl⟩ := typeName_eq_number_iff.mp (shape v held)
    rw [percentageChecks, holds_iff_present?.mp held] at inside
    exact ⟨n, rfl, inside (.percentage n (nameOf s)) (List.mem_singleton_self _)⟩
  · intro fits
    refine ⟨?_, ?_⟩
    · intro v held
      obtain ⟨n, rfl, -⟩ := fits v held
      rfl
    · unfold percentageChecks
      split
      · rename_i n found
        obtain ⟨n', same, inside⟩ := fits (.number n) (holds_iff_present?.mpr found)
        cases same
        intro k hk
        obtain rfl := List.mem_singleton.mp hk
        exact inside
      · simp

theorem isSegment_iff {s : Json} : IsSegment s ↔ ∀ k ∈ segmentChecks s, k.Passes := by
  have name : (∀ k ∈ fieldChecks s "name" .string, k.Passes) ↔
      ∀ v, Holds s "name" v → ∃ t, v = .string t := by
    simp only [passes_fieldChecks_iff, typeName_eq_string_iff]
  have conditions : _ ↔ ∀ v, Holds s "conditions" v →
      ∃ ds, v = .array ds ∧ ∀ d ∈ ds, IsCondition d :=
    passes_elements_iff
  rw [segmentChecks]
  simp only [List.forall_mem_append, List.forall_mem_map, passes_rollout_iff, name]
  rw [← and_assoc]
  constructor
  · intro segment
    exact ⟨conditions.mpr segment.conditions, segment.name, segment.rollout⟩
  · rintro ⟨list, name, rollout⟩
    exact ⟨conditions.mp list, name, rollout⟩

/-- What is no mapping passes all checks, since it has no fields. -/
theorem isSegment_of_mapping {s : Json} (h : s.isObject = true → IsSegment s) : IsSegment s := by
  by_cases mapping : s.isObject = true
  · exact h mapping
  · have empty {field : String} {v : Json} (held : Holds s field v) : False :=
      mapping (isObject_of_holds held)
    exact ⟨fun _ held => (empty held).elim, fun _ held => (empty held).elim,
      fun _ held => (empty held).elim⟩

theorem isFeature_iff {c : Json} : IsFeature c ↔ ∀ k ∈ checks c, k.Passes := by
  have segments : _ ↔ ∀ v, Holds c "segments" v →
      ∃ ss, v = .array ss ∧ ∀ s ∈ ss, s.isObject = true → IsSegment s :=
    passes_elements_iff
  have each : (∀ k ∈ (elements c "segments").flatMap segmentChecks, k.Passes) ↔
      ∀ s ∈ elements c "segments", s.isObject = true → IsSegment s := by
    simp only [List.forall_mem_flatMap, ← isSegment_iff]
    constructor
    · intro all s hs _
      exact all s hs
    · intro all s hs
      exact isSegment_of_mapping (all s hs)
  rw [checks, List.forall_mem_append, each]
  constructor
  · intro feature
    exact segments.mpr feature.segments
  · intro fits
    exact ⟨segments.mp fits⟩

end Config

end FeatureGate
