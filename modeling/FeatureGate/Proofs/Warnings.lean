import FeatureGate.Proofs.FirstFault
import FeatureGate.Proofs.Meaning

/-!
# Warnings about dead conditions

An operator of an unknown name makes a condition that no context meets, and a warning is all that
tells. Which warnings a compilation leaves can be read off the config: one for each dead condition
that stands before the first fault, in document order.
-/

namespace FeatureGate

/-! ## Logs -/

/-- The warnings of a log, in their order. -/
def warnings (log : List Diagnostic) : List Diagnostic := log.filter (·.level = .warn)

theorem warnings_append (xs ys : List Diagnostic) :
    warnings (xs ++ ys) = warnings xs ++ warnings ys := List.filter_append xs ys

theorem warnings_flatMap {α : Type} (f : α → List Diagnostic) (xs : List α) :
    warnings (xs.flatMap f) = xs.flatMap fun x => warnings (f x) := List.filter_flatMap

namespace Report

variable {ε α β : Type}

theorem log_ofExcept (r : Except ε α) : (ofExcept r).log = [] := by
  cases r <;> rfl

theorem log_bind_of_eq_ok {r : Except ε α} {a : α} (h : r = .ok a) (f : α → Report ε β) :
    (ofExcept r >>= f).log = (f a).log := by
  rw [h]
  rfl

theorem log_bind_of_eq_error {r : Except ε α} {e : ε} (h : r = .error e) (f : α → Report ε β) :
    (ofExcept r >>= f).log = [] := by
  rw [h]
  rfl

theorem log_bind_of_silent {r : Report ε α} {f : α → Report ε β} (silent : ∀ a, (f a).log = []) :
    (r >>= f).log = r.log := by
  cases h : r.outcome with
  | error e => rw [bind_of_error h]
  | ok a => rw [bind_of_ok h, silent, List.append_nil]

/-- What goes on without warnings leaves the warnings of what came before. -/
theorem warnings_bind_of_quiet {r : Report ε α} {f : α → Report ε β}
    (quiet : ∀ a, warnings (f a).log = []) : warnings (r >>= f).log = warnings r.log := by
  cases h : r.outcome with
  | error e => rw [bind_of_error h]
  | ok a => rw [bind_of_ok h, warnings_append, quiet, List.append_nil]

section Traversal

variable (f : α → Report ε β) (traverse : List α → Report ε (List β))

/-- A traversal that compiles the items of a list in turn leaves what each of them leaves. -/
theorem log_traversal_of_ok (nil : traverse [] = pure [])
    (cons : ∀ a as, traverse (a :: as) = do
      let b ← f a
      let bs ← traverse as
      return b :: bs)
    {as : List α} (passed : ∀ a ∈ as, ∃ b, (f a).outcome = .ok b) :
    (traverse as).log = as.flatMap fun a => (f a).log := by
  induction as with
  | nil =>
    rw [nil]
    rfl
  | cons a as ih =>
    obtain ⟨⟨b, first⟩, others⟩ := List.forall_mem_cons.mp passed
    rw [cons, bind_of_ok first, log_bind_of_silent fun _ => rfl, ih others, List.flatMap_cons]

/-- It ends with the first item that fails. -/
theorem log_traversal_of_error (cons : ∀ a as, traverse (a :: as) = do
      let b ← f a
      let bs ← traverse as
      return b :: bs)
    {before : List α} {a : α} (passed : ∀ x ∈ before, ∃ b, (f x).outcome = .ok b)
    (failed : ¬ ∃ b, (f a).outcome = .ok b) (after : List α) :
    (traverse (before ++ a :: after)).log = (before.flatMap fun x => (f x).log) ++ (f a).log := by
  induction before with
  | nil =>
    cases outcome : (f a).outcome with
    | ok b => exact absurd ⟨b, outcome⟩ failed
    | error e =>
      rw [List.nil_append, cons, bind_of_error outcome]
      rfl
  | cons x before ih =>
    obtain ⟨⟨b, first⟩, others⟩ := List.forall_mem_cons.mp passed
    rw [List.cons_append, cons, bind_of_ok first, log_bind_of_silent fun _ => rfl, ih others,
      List.flatMap_cons, List.append_assoc]

end Traversal

end Report

namespace Config

/-! ## Dead conditions -/

/-- The warning about a condition whose operator has none of the four names. -/
def deadWarning? (d : Json) : Option Diagnostic :=
  match d.member? "property", d.member? "op" with
  | some (.string property), some (.string op) =>
    if op ∈ ["equal", "not_equal", "in", "not_in"] then none
    else some (.unknownOperator property op)
  | _, _ => none

/-- The warnings about conditions, one for each that is dead. -/
def deadWarnings (ds : List Json) : List Diagnostic := ds.filterMap deadWarning?

/-- The conditions of all segments, in document order. -/
def allConditions (ss : List Json) : List Json := ss.flatMap (elements · "conditions")

theorem deadWarnings_append (xs ys : List Json) :
    deadWarnings (xs ++ ys) = deadWarnings xs ++ deadWarnings ys := List.filterMap_append

/-- Whether a condition is dead. -/
def IsDead (d : Json) : Prop := ∃ warning, deadWarning? d = some warning

theorem IsDead.op {d : Json} (dead : IsDead d) :
    ∃ op, d.member? "op" = some (.string op) ∧ op ∉ ["equal", "not_equal", "in", "not_in"] := by
  obtain ⟨warning, dead⟩ := dead
  unfold deadWarning? at dead
  split at dead
  · rename_i property op _ found
    split at dead
    · cases dead
    · rename_i unknown
      exact ⟨op, found, unknown⟩
  · cases dead

/-- The conditions of a segment that stand before its first fault. -/
inductive ReadInSegment (s : Json) : List Json → Prop
  | unlisted (v : Json) (held : Holds s "conditions" v) (other : ∀ ds, v ≠ .array ds) :
      ReadInSegment s []
  | condition (before : List Json) (d : Json) (after : List Json)
      (parts : elements s "conditions" = before ++ d :: after)
      (valid : ∀ x ∈ before, IsCondition x) (invalid : ¬ IsCondition d) : ReadInSegment s before
  /-- The name and the rollout are read after all conditions. -/
  | field (listed : ∀ v, Holds s "conditions" v → ∃ ds, v = .array ds)
      (valid : ∀ d ∈ elements s "conditions", IsCondition d) (faulty : ¬ IsSegment s) :
      ReadInSegment s (elements s "conditions")

/-- The conditions of a feature that stand before its first fault. -/
inductive ReadBeforeFault (c : Json) : List Json → Prop
  | unlisted (v : Json) (held : Holds c "segments" v) (other : ∀ ss, v ≠ .array ss) :
      ReadBeforeFault c []
  | segment (before : List Json) (s : Json) (after ds : List Json)
      (parts : elements c "segments" = before ++ s :: after)
      (valid : ∀ x ∈ before, IsSegment x) (stopped : ReadInSegment s ds) :
      ReadBeforeFault c (allConditions before ++ ds)

end Config

open Config

/-! ## Lists in fields -/

section Items

variable {config : Json} {field : String}

theorem Config.items_of_listed (listed : ∀ v, Holds config field v → ∃ vs, v = .array vs) :
    items config field = .ok (elements config field) := by
  have shape : ∀ k ∈ fieldChecks config field .sequence, k.Passes := by
    rw [passes_fieldChecks_iff]
    intro v held
    exact typeName_eq_sequence_iff.mpr (listed v held)
  obtain ⟨vs, read⟩ := decides_items.ok_iff.mpr shape
  rw [read, items_eq_ok read]

theorem Config.items_of_mem {v : Json} (member : v ∈ elements config field) :
    items config field = .ok (elements config field) := by
  unfold elements at member ⊢
  split at member
  · rename_i vs found
    have present : present? config field = some (.array vs) :=
      present?_eq_some_iff.mpr ⟨found, Json.noConfusion⟩
    rw [items, present]
  · cases member

theorem Config.items_of_unlisted {v : Json} (held : Holds config field v)
    (other : ∀ vs, v ≠ .array vs) : ∃ e, items config field = .error e := by
  have present := holds_iff_present?.mp held
  cases read : items config field with
  | error e => exact ⟨e, rfl⟩
  | ok vs =>
    have shape := decides_items.ok_iff.mp ⟨vs, read⟩
    obtain ⟨vs, same⟩ := typeName_eq_sequence_iff.mp (passes_fieldChecks_iff.mp shape v held)
    exact absurd same (other vs)

end Items

theorem Operator.ofName_of_unknown {op : String}
    (unknown : op ∉ ["equal", "not_equal", "in", "not_in"]) : ofName op = .unknown op := by
  simp only [List.mem_cons, List.not_mem_nil, or_false, not_or] at unknown
  obtain ⟨equal, notEqual, isIn, notIn⟩ := unknown
  rw [ofName, if_neg equal, if_neg notEqual, if_neg isIn, if_neg notIn]

theorem Operator.isKnown_ofName_iff {op : String} :
    (ofName op).isKnown = true ↔ op ∈ ["equal", "not_equal", "in", "not_in"] := by
  constructor
  · intro known
    by_contra unknown
    rw [ofName_of_unknown unknown] at known
    cases known
  · intro known
    simp only [List.mem_cons, List.not_mem_nil, or_false] at known
    rcases known with rfl | rfl | rfl | rfl <;> rfl

/-! ## Conditions -/

namespace Condition

theorem compiles_iff {d : Json} : (∃ c, (compile d).outcome = .ok c) ↔ IsCondition d := by
  rw [(decides_compile d).ok_iff, List.forall_mem_singleton]
  exact Iff.rfl

theorem warnings_compile_of_valid {d : Json} (valid : IsCondition d) :
    warnings (compile d).log = (deadWarning? d).toList := by
  obtain ⟨property, op, value, parts, comparand⟩ := isCondition_iff.mp valid
  obtain ⟨c, read⟩ := Comparand.exists_ofJson_iff.mpr comparand
  obtain ⟨hp, ho, -⟩ := parts?_eq_some_iff.mp parts
  simp only [compile, parts, read, deadWarning?, hp, ho]
  by_cases known : op ∈ ["equal", "not_equal", "in", "not_in"]
  · have kept : (Operator.ofName op).isKnown = true := Operator.isKnown_ofName_iff.mpr known
    rw [kept, if_pos known]
    rfl
  · rw [Operator.ofName_of_unknown known, if_neg known]
    rfl

theorem warnings_compile_of_invalid {d : Json} (invalid : ¬ IsCondition d) :
    warnings (compile d).log = [] := by
  rw [compile]
  cases parts : parts? d with
  | none => rfl
  | some found =>
    obtain ⟨property, op, value⟩ := found
    dsimp only
    cases read : Comparand.ofJson value with
    | error e => rfl
    | ok c =>
      have comparand := Comparand.exists_ofJson_iff.mp ⟨c, read⟩
      exact absurd (isCondition_iff.mpr ⟨property, op, value, parts, comparand⟩) invalid

theorem flatMap_warnings_compile {ds : List Json} (valid : ∀ d ∈ ds, IsCondition d) :
    (ds.flatMap fun d => warnings (compile d).log) = deadWarnings ds := by
  rw [deadWarnings, List.filterMap_eq_flatMap_toList]
  exact List.flatMap_congr fun d member => warnings_compile_of_valid (valid d member)

theorem warnings_compileAll_of_valid {ds : List Json} (valid : ∀ d ∈ ds, IsCondition d) :
    warnings (compileAll ds).log = deadWarnings ds := by
  have read := Report.log_traversal_of_ok compile compileAll rfl (fun _ _ => rfl)
    fun d member => compiles_iff.mpr (valid d member)
  rw [read, warnings_flatMap, flatMap_warnings_compile valid]

/-- Nothing is read behind an invalid condition, and it is refused without a warning. -/
theorem warnings_compileAll_of_invalid {before : List Json} {d : Json}
    (valid : ∀ x ∈ before, IsCondition x) (invalid : ¬ IsCondition d) (after : List Json) :
    warnings (compileAll (before ++ d :: after)).log = deadWarnings before := by
  have read := Report.log_traversal_of_error compile compileAll (fun _ _ => rfl)
    (fun x member => compiles_iff.mpr (valid x member)) (compiles_iff.not.mpr invalid) after
  rw [read, warnings_append, warnings_flatMap, flatMap_warnings_compile valid,
    warnings_compile_of_invalid invalid, List.append_nil]

end Condition

/-! ## Segments -/

namespace Segment

theorem compiles_iff {s : Json} : (∃ segment, (compile s).outcome = .ok segment) ↔ IsSegment s := by
  rw [(decides_compile s).ok_iff, isSegment_iff]

/-- All warnings of a segment come from its conditions. -/
theorem warnings_compile {s : Json} {ds : List Json} (listed : items s "conditions" = .ok ds) :
    warnings (compile s).log = warnings (Condition.compileAll ds).log := by
  rw [compile, Report.log_bind_of_eq_ok listed]
  apply Report.warnings_bind_of_quiet
  intro conditions
  rw [Report.warnings_bind_of_quiet, Report.log_ofExcept]
  · rfl
  intro name
  rw [Report.warnings_bind_of_quiet, Report.log_ofExcept]
  · rfl
  intro rollout
  dsimp only
  cases isPercentage (rollout.getD defaultRollout) <;> cases s.isObject <;> rfl

theorem warnings_compile_of_isSegment {s : Json} (valid : IsSegment s) :
    warnings (compile s).log = deadWarnings (elements s "conditions") := by
  have fits := passes_elements_iff.mpr valid.conditions
  have listed := items_of_listed fun v held => (valid.conditions v held).imp fun _ => And.left
  rw [warnings_compile listed, Condition.warnings_compileAll_of_valid fits.2]

/-- Up to its first fault a segment leaves the warnings of the conditions that stand before it. -/
theorem warnings_compile_of_stopped {s : Json} {ds : List Json} (stopped : ReadInSegment s ds) :
    ¬ IsSegment s ∧ warnings (compile s).log = deadWarnings ds := by
  cases stopped with
  | unlisted v held other =>
    constructor
    · intro valid
      obtain ⟨ds, same, -⟩ := valid.conditions v held
      exact other ds same
    · obtain ⟨e, failed⟩ := items_of_unlisted held other
      rw [compile, Report.log_bind_of_eq_error failed]
      rfl
  | condition before d after parts valid invalid =>
    have member : d ∈ elements s "conditions" := by
      rw [parts]
      exact List.mem_append_right ds List.mem_cons_self
    constructor
    · intro segment
      exact invalid ((passes_elements_iff.mpr segment.conditions).2 d member)
    · have listed := items_of_mem member
      rw [parts] at listed
      rw [warnings_compile listed, Condition.warnings_compileAll_of_invalid valid invalid after]
  | field listed valid faulty =>
    refine ⟨faulty, ?_⟩
    rw [warnings_compile (items_of_listed listed), Condition.warnings_compileAll_of_valid valid]

theorem exists_readInSegment {s : Json} (faulty : ¬ IsSegment s) : ∃ ds, ReadInSegment s ds := by
  by_cases listed : ∀ v, Holds s "conditions" v → ∃ ds, v = .array ds
  · by_cases valid : ∀ d ∈ elements s "conditions", IsCondition d
    · exact ⟨_, .field listed valid faulty⟩
    · obtain ⟨before, d, after, parts, passed, invalid⟩ := exists_first_of_not_forall valid
      exact ⟨before, .condition before d after parts passed invalid⟩
  · simp only [not_forall, not_exists] at listed
    obtain ⟨v, held, other⟩ := listed
    exact ⟨[], .unlisted v held other⟩

theorem flatMap_warnings_compile {ss : List Json} (valid : ∀ s ∈ ss, IsSegment s) :
    (ss.flatMap fun s => warnings (compile s).log) = deadWarnings (allConditions ss) := by
  rw [deadWarnings, allConditions, List.filterMap_flatMap]
  exact List.flatMap_congr fun s member => warnings_compile_of_isSegment (valid s member)

theorem warnings_compileAll_of_valid {ss : List Json} (valid : ∀ s ∈ ss, IsSegment s) :
    warnings (compileAll ss).log = deadWarnings (allConditions ss) := by
  have read := Report.log_traversal_of_ok compile compileAll rfl (fun _ _ => rfl)
    fun s member => compiles_iff.mpr (valid s member)
  rw [read, warnings_flatMap, flatMap_warnings_compile valid]

theorem warnings_compileAll_of_stopped {before : List Json} {s : Json} {ds : List Json}
    (valid : ∀ x ∈ before, IsSegment x) (stopped : ReadInSegment s ds) (after : List Json) :
    warnings (compileAll (before ++ s :: after)).log =
      deadWarnings (allConditions before ++ ds) := by
  obtain ⟨faulty, own⟩ := warnings_compile_of_stopped stopped
  have read := Report.log_traversal_of_error compile compileAll (fun _ _ => rfl)
    (fun x member => compiles_iff.mpr (valid x member)) (compiles_iff.not.mpr faulty) after
  rw [read, warnings_append, warnings_flatMap, flatMap_warnings_compile valid, own,
    deadWarnings_append]

/-- A segment that holds a dead condition admits no context. -/
theorem admits_eq_false_of_dead {s : Json} {segment : Segment}
    (compiled : (compile s).outcome = .ok segment)
    (dead : ∃ d ∈ elements s "conditions", IsDead d) (ctx : Context) :
    segment.admits ctx = false := by
  obtain ⟨d, member, dead⟩ := dead
  obtain ⟨op, held, unknown⟩ := dead.op
  have closed : Closed s ctx := .unknownOperator d member op held unknown
  rw [← Bool.not_eq_true, admits_iff compiled]
  exact closed.not_admits

end Segment

/-! ## Features -/

namespace Feature

variable {name : String} {c : Json}

theorem compiles_iff : (∃ f, (compile name c).outcome = .ok f) ↔ IsFeature c := by
  rw [(decides_compile name c).ok_iff, isFeature_iff]

/-- All warnings of a feature come from its segments. -/
theorem warnings_compile {ss : List Json} (listed : items c "segments" = .ok ss) :
    warnings (compile name c).log = warnings (Segment.compileAll ss).log := by
  rw [compile, Report.log_bind_of_eq_ok listed]
  exact Report.warnings_bind_of_quiet fun _ => rfl

theorem warnings_compile_of_isFeature (valid : IsFeature c) :
    warnings (compile name c).log = deadWarnings (allConditions (elements c "segments")) := by
  have fits := passes_elements_iff.mpr valid.segments
  have listed := items_of_listed fun v held => (valid.segments v held).imp fun _ => And.left
  rw [warnings_compile listed,
    Segment.warnings_compileAll_of_valid fun s member => isSegment_of_mapping (fits.2 s member)]

theorem warnings_compile_of_stopped {ds : List Json} (stopped : ReadBeforeFault c ds) :
    warnings (compile name c).log = deadWarnings ds := by
  cases stopped with
  | unlisted v held other =>
    obtain ⟨e, failed⟩ := items_of_unlisted held other
    rw [compile, Report.log_bind_of_eq_error failed]
    rfl
  | segment before s after ds parts valid stopped =>
    have member : s ∈ elements c "segments" := by
      rw [parts]
      exact List.mem_append_right before List.mem_cons_self
    have listed := items_of_mem member
    rw [parts] at listed
    rw [warnings_compile listed, Segment.warnings_compileAll_of_stopped valid stopped after]

theorem exists_readBeforeFault (faulty : ¬ IsFeature c) : ∃ ds, ReadBeforeFault c ds := by
  by_cases listed : ∀ v, Holds c "segments" v → ∃ ss, v = .array ss
  · have invalid : ¬ ∀ s ∈ elements c "segments", IsSegment s := by
      intro valid
      have shape := decides_items.ok_iff.mp ⟨_, items_of_listed listed⟩
      exact faulty ⟨passes_elements_iff.mp ⟨shape, fun s member _ => valid s member⟩⟩
    obtain ⟨before, s, after, parts, passed, fails⟩ := exists_first_of_not_forall invalid
    obtain ⟨ds, stopped⟩ := Segment.exists_readInSegment fails
    exact ⟨_, .segment before s after ds parts passed stopped⟩
  · simp only [not_forall, not_exists] at listed
    obtain ⟨v, held, other⟩ := listed
    exact ⟨[], .unlisted v held other⟩

/-- Which warnings a compilation leaves, and what is behind them. -/
structure WarnsOfDead (name : String) (c : Json) : Prop where
  compiled : ∀ f, (compile name c).outcome = .ok f →
    warnings (compile name c).log = deadWarnings (allConditions (elements c "segments"))
  failed : ∀ e, (compile name c).outcome = .error e → (∃ ds, ReadBeforeFault c ds) ∧
    ∀ ds, ReadBeforeFault c ds → warnings (compile name c).log = deadWarnings ds
  dead : ∀ f, (compile name c).outcome = .ok f →
    List.Forall₂ (fun s segment => (∃ d ∈ elements s "conditions", IsDead d) →
      ∀ ctx, segment.admits ctx = false) (elements c "segments") f.segments

/-- Every compilation warns of each dead condition that stands before the first fault, once and in
document order, and of nothing else. And a segment with such a condition admits no context. -/
theorem compile_warns_of_dead (name : String) (c : Json) : WarnsOfDead name c where
  compiled := by
    intro f outcome
    exact warnings_compile_of_isFeature (compiles_iff.mp ⟨f, outcome⟩)
  failed := by
    intro e outcome
    have faulty : ¬ IsFeature c := by
      intro valid
      obtain ⟨f, compiled⟩ : ∃ f, (compile name c).outcome = .ok f := compiles_iff.mpr valid
      rw [outcome] at compiled
      cases compiled
    exact ⟨exists_readBeforeFault faulty, fun ds stopped => warnings_compile_of_stopped stopped⟩
  dead := by
    intro f outcome
    have each := Segment.forall₂_of_compileAll (compile_eq_ok outcome)
    exact each.imp fun s segment compiled => Segment.admits_eq_false_of_dead compiled

end Feature

/-- A condition whose operator is misspelt. -/
def Config.misspelt : Json :=
  .object [("property", .string "p"), ("op", .string "equals"), ("value", .bool true)]

/-- A feature with one segment that holds it, besides other fields. -/
def Config.ofMisspelt (fields : List (String × Json)) : Json :=
  .object [("segments", .array [.object (("conditions", .array [misspelt]) :: fields)])]

theorem Config.isCondition_misspelt : IsCondition misspelt where
  mapping := rfl
  property := ⟨"p", rfl, nofun⟩
  op := ⟨"equals", rfl, nofun⟩
  value := ⟨.bool true, ⟨rfl, nofun⟩, .scalar _ (.bool true)⟩

theorem Feature.compile_ofMisspelt :
    (compile "f" (ofMisspelt [])).outcome =
      .ok ⟨"f",
        [⟨"unknown", [⟨"p", .unknown "equals", .scalar (.bool true)⟩],
          some Segment.defaultRollout⟩]⟩ := by
  have percentage := Segment.isPercentage_defaultRollout
  simp [ofMisspelt, misspelt, compile, Segment.compileAll, Segment.compile, Condition.compileAll,
    Condition.outcome_compile, Condition.parts?, Report.outcome_bind, Config.items, Config.present?,
    Config.string?, Config.number?, Json.member?, findEntry, percentage,
    Except.bind, Comparand.ofJson, Scalar.ofJson?,
    Segment.defaultName, Json.isObject, Operator.ofName]

/-- It compiles to a segment that admits nothing, and it is told of even if the name is at fault. -/
theorem Feature.compile_warns_of_dead_misspelt :
    (∃ segment, (compile "f" (ofMisspelt [])).outcome = .ok ⟨"f", [segment]⟩ ∧
        ∀ ctx, segment.admits ctx = false) ∧
      warnings (compile "f" (ofMisspelt [("name", .bool true)])).log =
        [.unknownOperator "p" "equals"] := by
  constructor
  · have warned := compile_warns_of_dead "f" (ofMisspelt [])
    obtain ⟨dead, -⟩ := List.forall₂_cons.mp (warned.dead _ compile_ofMisspelt)
    exact ⟨_, compile_ofMisspelt, dead ⟨misspelt, .head _, _, rfl⟩⟩
  · have warned := compile_warns_of_dead "f" (ofMisspelt [("name", .bool true)])
    have stopped : ReadBeforeFault (ofMisspelt [("name", .bool true)]) [misspelt] := by
      apply ReadBeforeFault.segment [] _ [] [misspelt] rfl nofun
      apply ReadInSegment.field
      · rintro v ⟨held, -⟩
        exact ⟨_, (Option.some.inj held).symm⟩
      · exact List.forall_mem_singleton.mpr isCondition_misspelt
      · intro valid
        obtain ⟨t, same⟩ := valid.name (.bool true) ⟨rfl, nofun⟩
        cases same
    exact (warned.failed _ rfl).2 _ stopped

end FeatureGate
