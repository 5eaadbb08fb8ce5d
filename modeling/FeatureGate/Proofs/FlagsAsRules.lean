import FeatureGate.Manager.Flags
import FeatureGate.Proofs.Coherence
import FeatureGate.Proofs.Eager
import FeatureGate.Proofs.Meaning

/-!
# Flags as rules

A flag that is on is a feature with one segment for everyone, a flag that is off a feature without
segments. A rule manager that is given such features for flags returns what a flag manager returns
and holds as many names, operation by operation, whatever it has compiled in the meantime.
-/

namespace FeatureGate

open Interleaving

/-! ## The feature of a flag -/

theorem hundred_inRange : -2 ^ 63 ≤ (100 : Int) ∧ (100 : Int) < 2 ^ 64 := by decide

/-- The config of a flag, with a name for its segment if it has one. -/
def flagConfig (segment : String) : Bool → Json
  | true => .object [("segments", .array [.object
      [("name", .string segment), ("rollout", .number (.int 100 hundred_inRange))]])]
  | false => .object [("segments", .array [])]

/-- What the config of a flag compiles to. -/
def flagFeature (name segment : String) : Bool → Feature
  | true => ⟨name, [⟨segment, [], some (.ofInt 100)⟩]⟩
  | false => ⟨name, []⟩

theorem isObject_flagConfig (segment : String) (on : Bool) :
    (flagConfig segment on).isObject = true := by
  cases on <;> rfl

theorem compile_flagConfig (name segment : String) (on : Bool) :
    (Feature.compile name (flagConfig segment on)).outcome = .ok (flagFeature name segment on) := by
  cases on with
  | false => rfl
  | true =>
    have percentage := Segment.isPercentage_hundred
    simp [flagConfig, flagFeature, Feature.compile, Segment.compileAll, Segment.compile,
      Condition.compileAll, Report.outcome_bind, Config.items, Config.present?, Config.string?,
      Config.number?, Json.member?, findEntry, Json.Number.toBinary64, percentage, Except.bind,
      Json.isObject]

/-- A full rollout admits every bucket. -/
theorem rolloutAdmits_hundred (ctx : Context) :
    rolloutAdmits (.ofInt 100) ctx.bucket = true := by
  obtain ⟨x, finite, value⟩ := Binary64.ofInt_of_small (n := 100) (by decide)
  rw [finite]
  exact rolloutAdmits_of_wide (by norm_num [value]) ctx

theorem grants_flagFeature (name segment : String) (on : Bool) (ctx : Context) :
    (flagFeature name segment on).grants ctx = on := by
  cases on with
  | false => rfl
  | true =>
    have admits := rolloutAdmits_hundred ctx
    simp [flagFeature, Feature.grants, Feature.grantingSegment?, Segment.admits, admits]

/-! ## Questions on a sound store -/

namespace RuleManager

variable {ledger : List (String × Json)} {m : RuleManager}

theorem keep_uncompiled {st : Store} {name : String} {entry : StoredConfig}
    (configured : st.configs.get? name = some entry) (uncompiled : st.compiled.get? name = none)
    (c : Compiled) :
    st.keep name entry.revision c =
      ({ st with compiled := st.compiled.insert name c }, some c) := by
  have current : st.isCurrent name entry.revision = true := by
    simp [Store.isCurrent, configured]
  simp only [Store.keep, current, if_true, uncompiled]

/-- Asking for a feature keeps the store sound and its configs as they are. -/
theorem feature_after (h : Recorded ledger m.store) (name : String) :
    Recorded ledger ((feature name).run m).after.store ∧
      ((feature name).run m).after.store.configs = m.store.configs := by
  rw [(run_feature name m).2]
  unfold Store.lookup
  cases uncompiled : m.store.compiled.get? name with
  | some c => exact ⟨h, rfl⟩
  | none =>
    cases configured : m.store.configs.get? name with
    | none => exact ⟨h, rfl⟩
    | some entry =>
      dsimp only
      cases compiled : compilation name entry.config with
      | error e => exact ⟨h, rfl⟩
      | ok f =>
        simp only [keep_uncompiled configured uncompiled]
        have kept := h.keep (c := ⟨f, m.compilations + 1⟩) configured compiled
        exact ⟨kept, trivial⟩

/-- What is answered about a stored config is what it compiles to, kept or not. -/
theorem feature_of_stored (h : Recorded ledger m.store) {name : String} {entry : StoredConfig}
    {f : Feature} (configured : m.store.configs.get? name = some entry)
    (compiles : compilation name entry.config = .ok f) :
    ∃ c, ((feature name).run m).outcome = .ok (some c) ∧ c.feature = f := by
  rw [(run_feature name m).1]
  unfold Store.lookup
  cases uncompiled : m.store.compiled.get? name with
  | some c =>
    obtain ⟨stored, found, sound⟩ := h.sound name c uncompiled
    obtain rfl := Option.some.inj (configured.symm.trans found)
    exact ⟨c, rfl, (Except.ok.inj (compiles.symm.trans sound)).symm⟩
  | none =>
    simp only [configured, compiles, Except.map, keep_uncompiled configured uncompiled,
      Option.getD_some]
    exact ⟨_, rfl, rfl⟩

theorem feature_of_unstored (h : Recorded ledger m.store) {name : String}
    (unconfigured : m.store.configs.get? name = none) :
    ((feature name).run m).outcome = .ok none := by
  have uncompiled : m.store.compiled.get? name = none := by
    rw [Option.eq_none_iff_forall_ne_some]
    intro c kept
    obtain ⟨entry, configured, -⟩ := h.sound name c kept
    rw [unconfigured] at configured
    cases configured
  rw [(run_feature name m).1]
  simp only [Store.lookup, uncompiled, unconfigured]

end RuleManager

/-! ## Operations on both managers -/

/-- Sets flags one by one. -/
def FlagManager.insertAll : List (String × Bool) → FlagManager.FlagCall Unit
  | [] => return
  | (name, enabled) :: rest => do
    insert name (.bool enabled)
    insertAll rest

/-- What is asked of a manager of flags. -/
inductive FlagOp where
  | insert (name : String) (enabled : Bool)
  | insertAll (flags : List (String × Bool))
  | load (content : String) (format : DocumentFormat)
  | reset
  | has (name : String) (raw : KeyMap Json)

inductive FlagAnswer where
  | done
  | counted (n : Nat)
  | granted (b : Bool)

/-- The configs of flags, with a name for the segment of each. -/
def flagConfigs (label : String → String) (flags : List (String × Bool)) : List (String × Json) :=
  flags.map fun f => (f.1, flagConfig (label f.1) f.2)

namespace FlagOp

/-- The operation on flags. -/
def onFlags : FlagOp → FlagManager.FlagCall FlagAnswer
  | insert name enabled => do
    FlagManager.insert name (.bool enabled)
    return .done
  | insertAll flags => do
    FlagManager.insertAll flags
    return .done
  | load content format => return .counted (← FlagManager.loadDocument content format)
  | reset => do
    FlagManager.reset
    return .done
  | has name _ => do
    let m ← .state
    return .granted (m.has name)

/-- The operation on features in place of flags. What a document lists is added in bulk. -/
def onRules (label : String → String) : FlagOp → RuleManager.RuleCall FlagAnswer
  | insert name enabled => do
    RuleManager.insert name (flagConfig (label name) enabled)
    return .done
  | insertAll flags => do
    RuleManager.extend (flagConfigs label flags)
    return .done
  | load content format =>
    match Document.booleans content format with
    | .error e => .fail (.document e)
    | .ok flags => do
      RuleManager.extend (flagConfigs label flags)
      return .counted flags.length
  | reset => do
    RuleManager.reset
    return .done
  | has name raw => return .granted (← RuleManager.has name raw)

end FlagOp

namespace Call

variable {σ ε α : Type}

/-- The state after calls in turn, failed ones included. -/
def afterAll : List (Call σ ε α) → σ → σ
  | [], s => s
  | c :: calls, s => afterAll calls (c.run s).after

/-- What calls in turn return, each with the size of the state that it leaves. -/
def trace (size : σ → Nat) : List (Call σ ε α) → σ → List (Except ε α × Nat)
  | [], _ => []
  | c :: calls, s => ((c.run s).outcome, size (c.run s).after) :: trace size calls (c.run s).after

end Call

/-! ## Simulation -/

/-- The two managers after the same operations: one holds the configs of the flags of the other,
in a store whose compiled features are sound, and can build a context of all that it is asked
with. -/
structure Mirrors (label : String → String) (flags : FlagManager) (rules : RuleManager) :
    Prop where
  total : ∀ raw, ∃ ctx, rules.builder raw = .ok ctx
  sound : ∃ ledger, Recorded ledger rules.store
  stored : ∀ name, (rules.store.configs.get? name).map StoredConfig.config =
    (flags.flags.get? name).map (flagConfig (label name))

variable {label : String → String} {flags : FlagManager} {rules : RuleManager}

theorem mirrors_new {builder : ContextBuilder} (total : ∀ raw, ∃ ctx, builder raw = .ok ctx)
    (settings : ManagerSettings) : Mirrors label .new (.new builder settings) where
  total := total
  sound := ⟨[], recorded_empty⟩
  stored := by intro name; rfl

/-- Both managers hold the same names. -/
theorem Mirrors.size_eq (h : Mirrors label flags rules) : rules.size = flags.size := by
  have names : ∀ name, (rules.store.configs.get? name).isSome = (flags.flags.get? name).isSome := by
    intro name
    have same := congrArg Option.isSome (h.stored name)
    rwa [Option.isSome_map, Option.isSome_map] at same
  apply Nat.le_antisymm
  · apply KeyMap.size_le_of_keys
    intro name entry found
    have held := names name
    rw [found] at held
    exact Option.isSome_iff_exists.mp held.symm
  · apply KeyMap.size_le_of_keys
    intro name on found
    have held := names name
    rw [found] at held
    exact Option.isSome_iff_exists.mp held

theorem Mirrors.insert (h : Mirrors label flags rules) (name : String) (enabled : Bool) :
    Mirrors label ⟨flags.flags.insert name enabled⟩
      { rules with store := rules.store.insert name (flagConfig (label name) enabled) } where
  total := h.total
  sound := by
    obtain ⟨ledger, recorded⟩ := h.sound
    exact ⟨_, recorded.insert name _⟩
  stored := by
    intro other
    simp only [Store.insert, KeyMap.get?_insert]
    by_cases same : name = other
    · subst same
      simp
    · simp only [same, if_false]
      exact h.stored other

theorem Mirrors.insertMany (h : Mirrors label flags rules) (listed : List (String × Bool)) :
    Mirrors label ⟨flags.flags.insertMany listed⟩
      { rules with store := rules.store.insertMany (flagConfigs label listed) } := by
  induction listed generalizing flags rules with
  | nil => exact h
  | cons f rest ih => exact ih (h.insert f.1 f.2)

theorem Mirrors.clear (h : Mirrors label flags rules) :
    Mirrors label .new { rules with store := rules.store.clear } where
  total := h.total
  sound := by
    obtain ⟨ledger, recorded⟩ := h.sound
    exact ⟨_, recorded.clear⟩
  stored := by intro name; rfl

/-- A question about a flag is answered alike, and asking changes no config. -/
theorem Mirrors.has (h : Mirrors label flags rules) (name : String) (raw : KeyMap Json) :
    ((RuleManager.has name raw).run rules).outcome = .ok (flags.has name) ∧
      Mirrors label flags ((RuleManager.has name raw).run rules).after := by
  obtain ⟨ledger, recorded⟩ := h.sound
  obtain ⟨outcome, after⟩ := RuleManager.run_has name raw rules
  obtain ⟨sound, configs⟩ := RuleManager.feature_after recorded name
  have builder := RuleManager.builder_feature name rules
  have held := h.stored name
  rw [outcome, after]
  refine ⟨?_, ?_, ⟨ledger, sound⟩, ?_⟩
  · cases configured : rules.store.configs.get? name with
    | none =>
      rw [configured, Option.map_none] at held
      have off : flags.flags.get? name = none := Option.map_eq_none_iff.mp held.symm
      simp only [RuleManager.feature_of_unstored recorded configured, Except.bind, FlagManager.has,
        off, Option.getD_none]
    | some entry =>
      rw [configured, Option.map_some] at held
      obtain ⟨on, flag, config⟩ := Option.map_eq_some_iff.mp held.symm
      have compiles : compilation name entry.config = .ok (flagFeature name (label name) on) := by
        rw [← config]
        exact compilation_eq_ok_iff.mpr (compile_flagConfig name (label name) on)
      obtain ⟨c, found, feature⟩ := RuleManager.feature_of_stored recorded configured compiles
      obtain ⟨ctx, built⟩ := h.total raw
      simp only [found, Except.bind, built, Except.mapError, Except.map, feature,
        grants_flagFeature, FlagManager.has, flag, Option.getD_some]
  · rw [builder]
    exact h.total
  · rw [configs]
    exact h.stored

/-! ## Steps and runs -/

theorem refusal?_flagConfig (validate : Bool) (name segment : String) (on : Bool) :
    refusal? validate name (flagConfig segment on) = none := by
  have compiles : Compiles name (flagConfig segment on) := ⟨_, compile_flagConfig name segment on⟩
  simp [refusal?, isObject_flagConfig, compileError?_eq_none compiles]

theorem accept_flagConfigs (validate : Bool) (label : String → String)
    (listed : List (String × Bool)) :
    accept validate (flagConfigs label listed) = .ok (flagConfigs label listed) := by
  have passed : ∀ e ∈ flagConfigs label listed, refusal? validate e.1 e.2 = none := by
    intro e member
    obtain ⟨f, -, rfl⟩ := List.mem_map.mp member
    exact refusal?_flagConfig validate f.1 (label f.1) f.2
  rw [accept, List.findSome?_eq_none_iff.mpr passed]
  rfl

theorem FlagManager.run_insertAll (listed : List (String × Bool)) (m : FlagManager) :
    ((insertAll listed).run m).outcome = .ok () ∧
      ((insertAll listed).run m).after = ⟨m.flags.insertMany listed⟩ := by
  induction listed generalizing m with
  | nil => exact ⟨rfl, rfl⟩
  | cons f rest ih => exact ih ⟨m.flags.insert f.1 f.2⟩

/-- Adding the flags of a list in bulk. -/
theorem Mirrors.extend (h : Mirrors label flags rules) (listed : List (String × Bool)) :
    ((RuleManager.extend (flagConfigs label listed)).run rules).outcome = .ok () ∧
      Mirrors label ⟨flags.flags.insertMany listed⟩
        ((RuleManager.extend (flagConfigs label listed)).run rules).after := by
  obtain ⟨outcome, after⟩ := RuleManager.run_extend (flagConfigs label listed) rules
  rw [outcome, after, accept_flagConfigs]
  exact ⟨rfl, h.insertMany listed⟩

/-- One operation on both sides. -/
theorem Mirrors.step (h : Mirrors label flags rules) (op : FlagOp) :
    ((op.onRules label).run rules).outcome = (op.onFlags.run flags).outcome ∧
      Mirrors label (op.onFlags.run flags).after ((op.onRules label).run rules).after := by
  cases op with
  | insert name enabled =>
    have passed := refusal?_flagConfig rules.settings.validateOnAdd name (label name) enabled
    obtain ⟨outcome, after⟩ := RuleManager.run_insert_of_passed passed
    simp only [FlagOp.onRules, Call.outcome_bind, Call.after_bind, outcome, after]
    exact ⟨rfl, h.insert name enabled⟩
  | insertAll listed =>
    obtain ⟨outcome, mirrors⟩ := h.extend listed
    obtain ⟨set, setAfter⟩ := FlagManager.run_insertAll listed flags
    simp only [FlagOp.onRules, FlagOp.onFlags, Call.outcome_bind, Call.after_bind, outcome, set,
      setAfter]
    exact ⟨rfl, mirrors⟩
  | load content format =>
    obtain ⟨loaded, loadedAfter⟩ := FlagManager.run_loadDocument content format flags
    simp only [FlagOp.onRules, FlagOp.onFlags, Call.outcome_bind, Call.after_bind, loaded,
      loadedAfter]
    cases Document.booleans content format with
    | error e => exact ⟨rfl, h⟩
    | ok listed =>
      obtain ⟨outcome, mirrors⟩ := h.extend listed
      simp only [Call.outcome_bind, Call.after_bind, outcome]
      exact ⟨rfl, mirrors⟩
  | reset => exact ⟨rfl, h.clear⟩
  | has name raw =>
    obtain ⟨outcome, mirrors⟩ := h.has name raw
    simp only [FlagOp.onRules, Call.outcome_bind, Call.after_bind, outcome]
    exact ⟨rfl, mirrors⟩

theorem Mirrors.run (h : Mirrors label flags rules) (ops : List FlagOp) :
    Call.trace RuleManager.size (ops.map (·.onRules label)) rules =
        Call.trace FlagManager.size (ops.map FlagOp.onFlags) flags ∧
      Mirrors label (Call.afterAll (ops.map FlagOp.onFlags) flags)
        (Call.afterAll (ops.map (·.onRules label)) rules) := by
  induction ops generalizing flags rules with
  | nil => exact ⟨rfl, h⟩
  | cons op ops ih =>
    obtain ⟨outcome, mirrors⟩ := h.step op
    obtain ⟨same, last⟩ := ih mirrors
    refine ⟨?_, last⟩
    simp only [List.map_cons, Call.trace, outcome, mirrors.size_eq, same]

/-- Whatever is done to a manager of flags and, with features in place of flags, to a manager of
rules that can always build a context: operation by operation both return the same and hold as many
names, and at every moment a question about any name is answered alike, without an error. -/
theorem rules_mirror_flags {builder : ContextBuilder}
    (total : ∀ raw, ∃ ctx, builder raw = .ok ctx) (settings : ManagerSettings)
    (label : String → String) (ops : List FlagOp) :
    Call.trace RuleManager.size (ops.map (·.onRules label)) (.new builder settings) =
        Call.trace FlagManager.size (ops.map FlagOp.onFlags) .new ∧
      ∀ name raw,
        ((RuleManager.has name raw).run
          (Call.afterAll (ops.map (·.onRules label)) (.new builder settings))).outcome =
          .ok ((Call.afterAll (ops.map FlagOp.onFlags) .new).has name) := by
  have initial : Mirrors label .new (.new builder settings) := mirrors_new total settings
  obtain ⟨trace, mirrors⟩ := initial.run ops
  refine ⟨trace, ?_⟩
  intro name raw
  exact (mirrors.has name raw).1

/-- A flag that is asked for, so that its feature is compiled, then overwritten in bulk, and
forgotten. -/
theorem rules_mirror_flags_overwritten :
    Call.trace RuleManager.size
        ([.insert "a" true, .has "a" ∅, .insertAll [("a", false), ("b", true)], .has "a" ∅,
          .has "b" ∅, .reset, .has "b" ∅].map (FlagOp.onRules id)) (.new .asIs ⟨true⟩) =
      [(.ok .done, 1), (.ok (.granted true), 1), (.ok .done, 2), (.ok (.granted false), 2),
        (.ok (.granted true), 2), (.ok .done, 0), (.ok (.granted false), 0)] := by
  have total : ∀ raw, ∃ ctx, ContextBuilder.asIs raw = .ok ctx := fun raw => ⟨_, rfl⟩
  exact (rules_mirror_flags total ⟨true⟩ id _).1

end FeatureGate
