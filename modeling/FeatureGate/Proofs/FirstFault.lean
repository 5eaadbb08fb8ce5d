import FeatureGate.Proofs.Comparison
import FeatureGate.Proofs.Grammar

/-!
# The first fault

A config compiles exactly if it belongs to the grammar. Otherwise it is refused with the error of the
first check that fails, and what stands behind the first fault has no part in the outcome.
-/

namespace FeatureGate

/-- A list not all of whose elements are good has a first one that is not. -/
theorem exists_first_of_not_forall {α : Type} {good : α → Prop} {xs : List α}
    (h : ¬ ∀ x ∈ xs, good x) :
    ∃ before x after, xs = before ++ x :: after ∧ (∀ y ∈ before, good y) ∧ ¬ good x := by
  induction xs with
  | nil => exact absurd nofun h
  | cons x xs ih =>
    by_cases first : good x
    · rw [List.forall_mem_cons] at h
      obtain ⟨before, y, after, rfl, passed, fails⟩ := ih fun rest => h ⟨first, rest⟩
      exact ⟨x :: before, y, after, rfl, List.forall_mem_cons.mpr ⟨first, passed⟩, fails⟩
    · exact ⟨[], x, xs, rfl, nofun, first⟩

namespace Config

namespace Check

/-- The first check of a list that fails. -/
def FirstFault (ks : List Check) (k : Check) : Prop :=
  ∃ before after, ks = before ++ k :: after ∧ (∀ l ∈ before, l.Passes) ∧ ¬ k.Passes

theorem FirstFault.append {ks : List Check} {k : Check} (h : FirstFault ks k) (ls : List Check) :
    FirstFault (ks ++ ls) k := by
  obtain ⟨before, after, rfl, passed, fails⟩ := h
  exact ⟨before, after ++ ls, by simp, passed, fails⟩

theorem exists_firstFault {ks : List Check} (h : ¬ ∀ k ∈ ks, k.Passes) :
    ∃ k, FirstFault ks k := by
  obtain ⟨before, k, after, parts, passed, fails⟩ := exists_first_of_not_forall h
  exact ⟨k, before, after, parts, passed, fails⟩

theorem FirstFault.unique {ks : List Check} {k l : Check} (h : FirstFault ks k)
    (h' : FirstFault ks l) : k = l := by
  obtain ⟨before, after, rfl, passed, fails⟩ := h
  obtain ⟨before', after', same, passed', fails'⟩ := h'
  -- the shorter beginning is followed by a check that fails, which the longer one has passed
  rcases List.append_eq_append_iff.mp same with ⟨between, rfl, rest⟩ | ⟨between, rfl, rest⟩
  · cases between with
    | nil => exact (List.cons.inj rest).1
    | cons first between =>
      obtain ⟨rfl, -⟩ := List.cons.inj rest
      exact absurd (passed' k (by simp)) fails
  · cases between with
    | nil => exact (List.cons.inj rest).1.symm
    | cons first between =>
      obtain ⟨rfl, -⟩ := List.cons.inj rest
      exact absurd (passed l (by simp)) fails'

/-- Every message names the field or quotes the condition that was checked. -/
theorem message_error (k : Check) : ∃ rest, k.error.message = k.opening ++ rest := by
  cases k with
  | shape field expected got => exact ⟨s!"expected {expected.describe}, got {got}", rfl⟩
  | condition d => exact ⟨"", String.append_empty.symm⟩
  | percentage rollout segment =>
    exact ⟨s!"{rollout.toBinary64.plainText} is outside 0..=100 in segment '{segment}'", rfl⟩

end Check

/-! ## Checks decide -/

/-- A computation succeeds if all checks pass, and fails with the error of the first one that
fails. -/
inductive Decides {α : Type} : List Check → Except ConfigError α → Prop where
  | accepted (ks : List Check) (a : α) (passed : ∀ k ∈ ks, k.Passes) : Decides ks (.ok a)
  | rejected (before : List Check) (k : Check) (after : List Check)
    (passed : ∀ l ∈ before, l.Passes) (fails : ¬ k.Passes) :
    Decides (before ++ k :: after) (.error k.error)

namespace Decides

variable {α β : Type} {ks ls : List Check}

theorem ok (a : α) : Decides [] (.ok a) := accepted [] a (by simp)

theorem pass (k : Check) (passes : k.Passes) (a : α) : Decides [k] (.ok a) :=
  accepted [k] a (List.forall_mem_singleton.mpr passes)

theorem fail (k : Check) (fails : ¬ k.Passes) :
    Decides [k] (.error k.error : Except ConfigError α) :=
  rejected [] k [] (by simp) fails

theorem bind {r : Report ConfigError α} {f : α → Report ConfigError β}
    (first : Decides ks r.outcome) (next : ∀ a, r.outcome = .ok a → Decides ls (f a).outcome) :
    Decides (ks ++ ls) (r >>= f).outcome := by
  rw [Report.outcome_bind]
  generalize r.outcome = result at first next
  cases first with
  | accepted _ a passed =>
    have rest := next a rfl
    rw [Except.bind]
    generalize (f a).outcome = result at rest
    cases rest with
    | accepted _ b passed' =>
      apply accepted
      intro k hk
      exact (List.mem_append.mp hk).elim (passed k) (passed' k)
    | rejected before k after passed' fails =>
      -- what passed in the first part stands before the fault of the second
      rw [← List.append_assoc]
      apply rejected (ks ++ before) k after _ fails
      intro l hl
      exact (List.mem_append.mp hl).elim (passed l) (passed' l)
  | rejected before k after passed fails =>
    rw [Except.bind, List.append_assoc, List.cons_append]
    exact rejected before k (after ++ ls) passed fails

theorem ofExcept {r : Except ConfigError α} (h : Decides ks r) :
    Decides ks (Report.ofExcept r).outcome := by
  rw [Report.outcome_ofExcept]
  exact h

/-- A list is decided by the checks of its elements in turn. -/
theorem traversal {f : Json → Report ConfigError β} {checksOf : Json → List Check}
    (each : ∀ v, Decides (checksOf v) (f v).outcome)
    (traverse : List Json → Report ConfigError (List β)) (nil : traverse [] = pure [])
    (cons : ∀ v vs, traverse (v :: vs) = do
      let b ← f v
      let bs ← traverse vs
      return b :: bs)
    (vs : List Json) : Decides (vs.flatMap checksOf) (traverse vs).outcome := by
  induction vs with
  | nil =>
    rw [nil]
    exact Decides.ok []
  | cons v vs ih =>
    rw [cons, List.flatMap_cons]
    apply bind (each v)
    intro b _
    rw [← List.append_nil (vs.flatMap checksOf)]
    apply bind ih
    intro bs _
    exact Decides.ok (b :: bs)

theorem ok_iff {r : Except ConfigError α} (h : Decides ks r) :
    (∃ a, r = .ok a) ↔ ∀ k ∈ ks, k.Passes := by
  cases h with
  | accepted _ a passed => simpa using passed
  | rejected before k after passed fails =>
    constructor
    · rintro ⟨a, impossible⟩
      cases impossible
    · intro all
      exact absurd (all k (by simp)) fails

theorem error_iff {r : Except ConfigError α} (h : Decides ks r) {e : ConfigError} :
    r = .error e ↔ ∃ k, Check.FirstFault ks k ∧ e = k.error := by
  cases h with
  | accepted _ a passed =>
    constructor
    · intro impossible
      cases impossible
    · rintro ⟨k, ⟨before, after, rfl, -, fails⟩, -⟩
      exact absurd (passed k (by simp)) fails
  | rejected before k after passed fails =>
    have first : Check.FirstFault (before ++ k :: after) k := ⟨before, after, rfl, passed, fails⟩
    constructor
    · intro same
      exact ⟨k, first, (Except.error.inj same).symm⟩
    · rintro ⟨l, other, rfl⟩
      rw [other.unique first]

end Decides

section Fields

variable {config : Json} {field : String}

theorem decides_field {α : Type} {r : Except ConfigError α} {expected : FieldShape}
    (absent : present? config field = none → ∃ a, r = .ok a)
    (present : ∀ v, present? config field = some v →
      v.typeName = expected.typeName ∧ (∃ a, r = .ok a) ∨
        v.typeName ≠ expected.typeName ∧ r = .error (.wrongType field expected v.typeName)) :
    Decides (fieldChecks config field expected) r := by
  unfold fieldChecks
  cases found : present? config field with
  | none =>
    obtain ⟨a, rfl⟩ := absent found
    exact .ok a
  | some v =>
    rcases present v found with ⟨same, a, rfl⟩ | ⟨other, rfl⟩
    · exact .pass (.shape field expected v.typeName) same a
    · exact .fail (.shape field expected v.typeName) other

theorem decides_items : Decides (fieldChecks config field .sequence) (items config field) := by
  apply decides_field
  · intro absent
    exact ⟨[], by simp [items, absent]⟩
  · intro v found
    cases v <;> simp [items, found, Json.typeName, FieldShape.typeName]

theorem decides_string? : Decides (fieldChecks config field .string) (string? config field) := by
  apply decides_field
  · intro absent
    exact ⟨none, by simp [string?, absent]⟩
  · intro v found
    cases v <;> simp [string?, found, Json.typeName, FieldShape.typeName]

theorem decides_number? : Decides (fieldChecks config field .number) (number? config field) := by
  apply decides_field
  · intro absent
    exact ⟨none, by simp [number?, absent]⟩
  · intro v found
    cases v <;> simp [number?, found, Json.typeName, FieldShape.typeName]

end Fields

end Config

/-! ## Compiling -/

open Config

theorem Scalar.exists_ofJson?_iff {v : Json} : (∃ s, ofJson? v = some s) ↔ IsScalar v := by
  constructor
  · rintro ⟨s, h⟩
    cases v with
    | bool | number | string => constructor
    | null | array | object => cases h
  · intro h
    cases h <;> exact ⟨_, rfl⟩

namespace Comparand

theorem exists_scalarsOfItems_iff {vs : List Json} :
    (∃ ss, scalarsOfItems vs = .ok ss) ↔ ∀ v ∈ vs, IsScalar v := by
  induction vs with
  | nil => simp [scalarsOfItems]
  | cons v vs ih =>
    rw [List.forall_mem_cons, ← ih, ← Scalar.exists_ofJson?_iff, scalarsOfItems]
    cases Scalar.ofJson? v with
    | none => simp
    | some s => cases scalarsOfItems vs <;> simp [Except.map]

theorem exists_ofJson_iff {v : Json} : (∃ c, ofJson v = .ok c) ↔ IsComparand v := by
  constructor
  · rintro ⟨c, h⟩
    rcases ofJson_cases h with ⟨s, hs, -⟩ | ⟨vs, ss, rfl, rfl, -⟩
    · exact .scalar v (Scalar.exists_ofJson?_iff.mp ⟨s, hs⟩)
    · apply IsComparand.list
      apply exists_scalarsOfItems_iff.mp
      cases read : scalarsOfItems vs with
      | ok ss => exact ⟨ss, rfl⟩
      | error e => simp [ofJson, read, Except.map] at h
  · intro h
    cases h with
    | scalar _ h => cases h <;> exact ⟨_, rfl⟩
    | list vs h =>
      obtain ⟨ss, read⟩ := exists_scalarsOfItems_iff.mpr h
      exact ⟨.list ss, by simp [ofJson, read, Except.map]⟩

end Comparand

namespace Condition

theorem isCondition_iff {d : Json} :
    IsCondition d ↔
      ∃ property op value, parts? d = some (property, op, value) ∧ IsComparand value := by
  simp only [parts?_eq_some_iff]
  constructor
  · rintro ⟨-, ⟨property, hp, -⟩, ⟨op, ho, -⟩, value, ⟨hv, present⟩, comparand⟩
    exact ⟨property, op, value, ⟨hp, ho, hv, present⟩, comparand⟩
  · rintro ⟨property, op, value, ⟨hp, ho, hv, present⟩, comparand⟩
    have holds : Holds d "value" value := ⟨hv, present⟩
    exact ⟨isObject_of_holds holds, ⟨property, hp, Json.noConfusion⟩, ⟨op, ho, Json.noConfusion⟩,
      value, holds, comparand⟩

theorem decides_compile (d : Json) : Decides [.condition d] (compile d).outcome := by
  have refused (invalid : ¬ IsCondition d) :
      Decides [.condition d] (.error (.invalidCondition d) : Except ConfigError Condition) :=
    .fail (.condition d) invalid
  rw [outcome_compile]
  rw [isCondition_iff] at refused
  split
  · rename_i parts
    apply refused
    rintro ⟨property, op, value, parts', -⟩
    rw [parts] at parts'
    cases parts'
  · rename_i property op value parts
    split
    · rename_i e rejected
      apply refused
      rintro ⟨property', op', value', parts', comparand⟩
      rw [parts] at parts'
      cases parts'
      obtain ⟨c, accepted⟩ := Comparand.exists_ofJson_iff.mpr comparand
      rw [accepted] at rejected
      cases rejected
    · rename_i c accepted
      have comparand := Comparand.exists_ofJson_iff.mp ⟨c, accepted⟩
      have valid := isCondition_iff.mpr ⟨property, op, value, parts, comparand⟩
      exact .pass (.condition d) valid _

theorem decides_compileAll (ds : List Json) :
    Decides (ds.map .condition) (compileAll ds).outcome := by
  rw [← List.flatMap_pure_eq_map]
  exact Decides.traversal decides_compile compileAll rfl (fun _ _ => rfl) ds

end Condition

namespace Segment

theorem nameOf_eq {s : Json} {name : Option String} (h : string? s "name" = .ok name) :
    name.getD defaultName = nameOf s := by
  unfold string? at h
  unfold nameOf
  split at h
  · rename_i absent
    obtain rfl := Except.ok.inj h
    rw [absent]
    rfl
  · rename_i found
    obtain rfl := Except.ok.inj h
    rw [found]
    rfl
  · cases h

theorem decides_compile (s : Json) : Decides (segmentChecks s) (compile s).outcome := by
  unfold compile segmentChecks
  apply Decides.bind decides_items.ofExcept
  intro ds read
  rw [Report.outcome_ofExcept] at read
  rw [← items_eq_ok read]
  apply Decides.bind (Condition.decides_compileAll ds)
  intro conditions _
  apply Decides.bind decides_string?.ofExcept
  intro name readName
  rw [Report.outcome_ofExcept] at readName
  apply Decides.bind decides_number?.ofExcept
  intro rollout readRollout
  rw [Report.outcome_ofExcept] at readRollout
  rw [nameOf_eq readName]
  dsimp only
  rcases number?_eq_ok readRollout with ⟨absent, rfl⟩ | ⟨n, found, rfl⟩
  · have none : percentageChecks s = [] := by rw [percentageChecks, absent]
    rw [none, Option.getD_none, if_pos isPercentage_defaultRollout]
    cases s.isObject <;> exact .ok _
  · have one : percentageChecks s = [.percentage n (nameOf s)] := by
      rw [percentageChecks, present?_eq_some_iff.mpr ⟨found, Json.noConfusion⟩]
    rw [one, Option.getD_some]
    by_cases inside : isPercentage n.toBinary64 = true
    · have passes : (Check.percentage n (nameOf s)).Passes := isPercentage_iff.mp inside
      rw [if_pos inside]
      cases s.isObject <;> exact .pass _ passes _
    · have fails : ¬ (Check.percentage n (nameOf s)).Passes := by
        intro passes
        exact inside (isPercentage_iff.mpr passes)
      rw [if_neg inside]
      exact .fail _ fails

theorem decides_compileAll (ss : List Json) :
    Decides (ss.flatMap segmentChecks) (compileAll ss).outcome :=
  Decides.traversal decides_compile compileAll rfl (fun _ _ => rfl) ss

end Segment

theorem Feature.decides_compile (name : String) (c : Json) :
    Decides (checks c) (compile name c).outcome := by
  unfold compile checks
  apply Decides.bind decides_items.ofExcept
  intro ss read
  rw [Report.outcome_ofExcept] at read
  rw [← items_eq_ok read, ← List.append_nil (ss.flatMap segmentChecks)]
  apply Decides.bind (Segment.decides_compileAll ss)
  intro segments _
  exact Decides.ok (Feature.mk name segments)

/-- A config compiles exactly if it belongs to the grammar, and is refused with the error of its
first check that fails, whose message names the field or quotes the condition. Two configs with the
same checks up to one that fails have the same outcome. -/
theorem Feature.compile_decided (name : String) (c : Json) :
    ((∃ f, (compile name c).outcome = .ok f) ↔ IsFeature c) ∧
      (∀ e, (compile name c).outcome = .error e ↔
        ∃ k, Check.FirstFault (checks c) k ∧ e = k.error) ∧
      (∀ k : Check, ∃ rest, k.error.message = k.opening ++ rest) ∧
      ∀ before k after, checks c = before ++ k :: after → ¬ k.Passes →
        ∀ name' c' after', checks c' = before ++ k :: after' →
          ∃ e, (compile name c).outcome = .error e ∧ (compile name' c').outcome = .error e := by
  have decided := decides_compile name c
  refine ⟨?_, fun e => decided.error_iff, Check.message_error, ?_⟩
  · rw [decided.ok_iff, isFeature_iff]
  · intro before k after same fails name' c' after' same'
    -- the first fault is `k` or stands before it, where both lists of checks agree
    have some : ¬ ∀ l ∈ before ++ [k], l.Passes := by
      intro all
      exact fails (all k (by simp))
    obtain ⟨l, first⟩ := Check.exists_firstFault some
    refine ⟨l.error, ?_, ?_⟩
    · rw [decided.error_iff, same, List.append_cons]
      exact ⟨l, first.append after, rfl⟩
    · rw [(decides_compile name' c').error_iff, same', List.append_cons]
      exact ⟨l, first.append after', rfl⟩

/-- An element that is no mapping, and a segment whose first condition is at fault before all
else. -/
def Config.faulty (fields : List (String × Json)) : Json :=
  .object [("segments", .array [.string "derp",
    .object (("conditions", .array [.array [.string "derp"], .null]) :: fields)])]

theorem Feature.compile_decided_faulty :
    (compile "f" (faulty [("name", .bool true)])).outcome =
        .error (.invalidCondition (.array [.string "derp"])) ∧
      (compile "g" (faulty [("rollout", .string "all")])).outcome =
        .error (.invalidCondition (.array [.string "derp"])) := by
  let before : List Check :=
    [.shape "segments" .sequence "array", .shape "conditions" .sequence "array"]
  let after : List Check := [.condition .null, .shape "name" .string "bool"]
  let after' : List Check := [.condition .null, .shape "rollout" .number "string"]
  have passed : ∀ k ∈ before, k.Passes := by
    simp [before, Check.Passes, FieldShape.typeName]
  have fails : ¬ (Check.condition (.array [.string "derp"])).Passes := by
    intro valid
    cases valid.mapping
  obtain ⟨-, refused, -, stable⟩ := compile_decided "f" (faulty [("name", .bool true)])
  have outcome := (refused _).mpr ⟨_, ⟨before, after, rfl, passed, fails⟩, rfl⟩
  obtain ⟨e, same, outcome'⟩ :=
    stable before _ after rfl fails "g" (faulty [("rollout", .string "all")]) after' rfl
  rw [outcome] at same
  rw [outcome', ← same]
  exact ⟨outcome, rfl⟩

end FeatureGate
