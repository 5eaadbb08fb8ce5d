import FeatureGate.Proofs.Coherence
import FeatureGate.Proofs.Eager

/-!
# Validation predicts evaluation

Validation compiles all stored configs anew, in any order of them, while a question is answered
from what was compiled before if it can be. Yet they agree: only what a stored config compiles to is
kept, so a config that does not compile is never hidden behind the cache.
-/

namespace FeatureGate

open Interleaving

/-- Either a config compiles under a name or it fails for a reason. -/
theorem compiles_or_faulty (name : String) (config : Json) :
    Compiles name config ∨ ∃ source, (Feature.compile name config).outcome = .error source := by
  cases compiled : (Feature.compile name config).outcome with
  | ok f => exact .inl ⟨f, compiled⟩
  | error source => exact .inr ⟨source, rfl⟩

theorem compileError?_eq_some_iff {name : String} {config : Json} {e : ManagerError} :
    compileError? name config = some e ↔
      ∃ source, (Feature.compile name config).outcome = .error source ∧
        e = .compile name source := by
  rw [← compilation_eq_error_iff, compileError?]
  cases compilation name config with
  | ok f =>
    constructor
    · intro found
      cases found
    · intro failed
      cases failed
  | error e' =>
    constructor
    · intro found
      rw [Option.some.inj found]
    · intro failed
      rw [Except.error.inj failed]

namespace RuleManager

variable {m : RuleManager} {ledger : List (String × Json)} {name : String} {entry : StoredConfig}
  {source : ConfigError}

/-! ## Faulty configs -/

/-- Nothing is kept compiled for a config that does not compile. -/
theorem uncompiled_of_faulty (recorded : Recorded ledger m.store)
    (configured : m.store.configs.get? name = some entry)
    (faulty : (Feature.compile name entry.config).outcome = .error source) :
    m.store.compiled.get? name = none := by
  cases kept : m.store.compiled.get? name with
  | none => rfl
  | some c =>
    obtain ⟨entry', configured', compiled⟩ := recorded.sound name c kept
    obtain rfl := Option.some.inj (configured.symm.trans configured')
    rw [compilation_eq_ok_iff, faulty] at compiled
    cases compiled

theorem feature_error_of_faulty (recorded : Recorded ledger m.store)
    (configured : m.store.configs.get? name = some entry)
    (faulty : (Feature.compile name entry.config).outcome = .error source) :
    ((feature name).run m).outcome = .error (.compile name source) := by
  have uncompiled := uncompiled_of_faulty recorded configured faulty
  have failed := compilation_eq_error_iff.mpr ⟨source, faulty, rfl⟩
  rw [(run_feature name m).1]
  simp only [Store.lookup, uncompiled, configured, failed]
  rfl

/-- The question fails before any context is built. -/
theorem has_error_of_faulty (recorded : Recorded ledger m.store)
    (configured : m.store.configs.get? name = some entry)
    (faulty : (Feature.compile name entry.config).outcome = .error source) (raw : KeyMap Json) :
    ((has name raw).run m).outcome = .error (.compile name source) := by
  rw [(run_has name raw m).1, feature_error_of_faulty recorded configured faulty]
  rfl

theorem mem_entries_iff {e : String × StoredConfig} :
    e ∈ m.store.configs.entries ↔ m.store.configs.get? e.1 = some e.2 :=
  (KeyMap.findEntry_eq_some_iff m.store.configs.nodup_keys).symm

/-! ## Predictions -/

/-- What a validation tells about the questions that may be asked of a manager. -/
structure Predicts (m : RuleManager) (validated : Done RuleManager ManagerError Nat) : Prop where
  unchanged : validated.after = m
  ok_iff : validated.outcome = .ok m.size ↔
    ∀ name, ∃ found, ((feature name).run m).outcome = .ok found
  /-- Otherwise it names a feature that fails with the very error, whatever context is given. -/
  failed : validated.outcome ≠ .ok m.size → ∃ name source, name ∈ m.names ∧
    validated.outcome = .error (.compile name source) ∧
    ∀ raw, ((has name raw).run m).outcome = .error (.compile name source)

theorem predicts_validateEntries (recorded : Recorded ledger m.store)
    {order : List (String × StoredConfig)} (perm : order.Perm m.store.configs.entries) :
    Predicts m ((validateEntries order).run m) := by
  obtain ⟨outcome, after⟩ := run_validateEntries order m
  have size : order.length = m.size := perm.length_eq
  have stored : ∀ e, e ∈ order ↔ m.store.configs.get? e.1 = some e.2 :=
    fun e => perm.mem_iff.trans mem_entries_iff
  cases search : order.findSome? fun e => compileError? e.1 e.2.config with
  | none =>
    rw [search, size] at outcome
    refine ⟨after, ⟨fun _ name => feature_ok_of_compiles ?_, fun _ => outcome⟩,
      absurd outcome⟩
    intro entry configured
    have passed := List.findSome?_eq_none_iff.mp search (name, entry) ((stored _).mpr configured)
    rcases compiles_or_faulty name entry.config with compiles | ⟨source, faulty⟩
    · exact compiles
    · rw [compileError?_eq_some_iff.mpr ⟨source, faulty, rfl⟩] at passed
      cases passed
  | some e =>
    obtain ⟨⟨name, entry⟩, member, found⟩ := List.exists_of_findSome?_eq_some search
    obtain ⟨source, faulty, rfl⟩ := compileError?_eq_some_iff.mp found
    have configured := (stored (name, entry)).mp member
    rw [search] at outcome
    refine ⟨after, ⟨?_, ?_⟩, ?_⟩
    · intro ok
      rw [outcome] at ok
      cases ok
    · intro answered
      obtain ⟨found, answer⟩ := answered name
      rw [feature_error_of_faulty recorded configured faulty] at answer
      cases answer
    · intro _
      exact ⟨name, source, (KeyMap.mem_keys_iff _ _).mpr ⟨entry, configured⟩, outcome,
        has_error_of_faulty recorded configured faulty⟩

/-! ## Reachable managers -/

/-- The managers that are made: new ones, those made of features, and assembled ones. -/
inductive Made : RuleManager → Prop
  | new (builder : ContextBuilder) (settings : ManagerSettings) : Made (.new builder settings)
  | ofFeatures (builder : ContextBuilder) (entries : List (String × Json)) (m : RuleManager)
      (done : (RuleManager.ofFeatures builder entries).outcome = .ok m) : Made m
  | built (a : Assembly) (files : Files) (m : RuleManager)
      (done : (a.build files).outcome = .ok m) : Made m

/-- What a manager is made with was inserted into an empty store. -/
theorem Made.store (h : m.Made) : ∃ entries, m.store = Store.empty.insertMany entries := by
  cases h with
  | new => exact ⟨[], rfl⟩
  | ofFeatures builder entries _ done =>
    obtain ⟨outcome, after⟩ := run_extend entries (RuleManager.new builder .default)
    simp only [RuleManager.ofFeatures, outcome, after] at done
    cases accepted : accept (RuleManager.new builder .default).settings.validateOnAdd entries with
    | error e =>
      rw [accepted] at done
      cases done
    | ok listed =>
      rw [accepted] at done
      obtain rfl := Except.ok.inj done
      exact ⟨listed, rfl⟩
  | built a files _ done =>
    rw [Assembly.outcome_build] at done
    cases gathered : gather a.settings.validateOnAdd (a.sources files) with
    | error e =>
      rw [gathered] at done
      cases done
    | ok entries =>
      rw [gathered] at done
      obtain rfl := Except.ok.inj done
      exact ⟨entries, rfl⟩

theorem Made.recorded (h : m.Made) (moves : List Move) :
    ∃ ledger, Recorded ledger ((World.mk m []).run moves).manager.store := by
  obtain ⟨entries, store⟩ := h.store
  have start : (World.mk m []).Sound ([] ++ entries) := by
    refine ⟨?_, nofun⟩
    rw [store]
    exact recorded_empty.insertMany entries
  exact ⟨_, (start.run moves).store⟩

/-- At every moment of every run, validation in any order of the stored configs predicts the
answers to all questions, whatever was compiled before. The order of the names is one of these
orders. -/
theorem validation_predicts (made : m.Made) (moves : List Move) :
    (∀ order, order.Perm ((World.mk m []).run moves).manager.store.configs.entries →
        Predicts ((World.mk m []).run moves).manager
          ((validateEntries order).run ((World.mk m []).run moves).manager)) ∧
      Predicts ((World.mk m []).run moves).manager
        (validateAll.run ((World.mk m []).run moves).manager) := by
  obtain ⟨ledger, recorded⟩ := made.recorded moves
  refine ⟨fun order perm => predicts_validateEntries recorded perm, ?_⟩
  rw [run_validateAll_eq]
  exact predicts_validateEntries recorded (.refl _)

/-- A feature that is compiled, and then one that does not compile. -/
def halfCompiled : RuleManager :=
  ((World.mk (.new .asIs .default) []).run
    [.begin (.write (.insert "f" (.object []))), .advance 0, .begin (.ask "f" .feature),
      .advance 1, .advance 1, .advance 1, .begin (.write (.insert "g" unlisted)),
      .advance 2]).manager

/-- Validation in either order fails as every question about the second feature does. -/
theorem validation_predicts_halfCompiled :
    halfCompiled.compiledCount = 1 ∧
      (validateAll.run halfCompiled).outcome = .error (.compile "g" unlistedError) ∧
      ((validateEntries halfCompiled.store.configs.entries.reverse).run halfCompiled).outcome =
        .error (.compile "g" unlistedError) ∧
      ∀ raw, ((has "g" raw).run halfCompiled).outcome = .error (.compile "g" unlistedError) := by
  have predicts := (validation_predicts (.new .asIs .default) _).1
    halfCompiled.store.configs.entries.reverse (List.reverse_perm _)
  obtain ⟨name, source, -, outcome, fails⟩ := predicts.failed nofun
  obtain ⟨rfl, rfl⟩ := ManagerError.compile.inj (Except.error.inj outcome)
  exact ⟨rfl, rfl, outcome, fails⟩

end RuleManager

end FeatureGate
