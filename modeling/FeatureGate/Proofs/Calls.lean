import FeatureGate.Manager.Rules

/-!
# What the calls of a manager do

Every call is described by its outcome and by the manager that it leaves behind. The calls that write
configs are one: `accept` tells which entries they store, or why they store none.
-/

namespace FeatureGate

namespace Call

variable {σ ε α β : Type}

theorem outcome_bind (c : Call σ ε α) (f : α → Call σ ε β) (s : σ) :
    ((c >>= f).run s).outcome =
      (c.run s).outcome.bind fun a => ((f a).run (c.run s).after).outcome := by
  cases h : (c.run s).outcome with
  | error e => simp only [run_bind_of_error h, Except.bind]
  | ok a => simp only [run_bind_of_ok h, Except.bind]

theorem after_bind (c : Call σ ε α) (f : α → Call σ ε β) (s : σ) :
    ((c >>= f).run s).after =
      match (c.run s).outcome with
      | .error _ => (c.run s).after
      | .ok a => ((f a).run (c.run s).after).after := by
  cases h : (c.run s).outcome with
  | error e => rw [run_bind_of_error h]
  | ok a => rw [run_bind_of_ok h]

end Call

/-! ## Compiling and checking -/

/-- What asking for the feature of a config comes to. -/
def compilation (name : String) (config : Json) : Except ManagerError Feature :=
  (Feature.compile name config).outcome.mapError (.compile name)

theorem compilation_eq_ok_iff {name : String} {config : Json} {f : Feature} :
    compilation name config = .ok f ↔ (Feature.compile name config).outcome = .ok f := by
  unfold compilation
  cases (Feature.compile name config).outcome with
  | error e => exact ⟨nofun, nofun⟩
  | ok g =>
    constructor
    · rintro ⟨⟩
      rfl
    · rintro ⟨⟩
      rfl

/-- Why a config does not compile, if it does not. -/
def compileError? (name : String) (config : Json) : Option ManagerError :=
  match compilation name config with
  | .ok _ => none
  | .error e => some e

/-- Why a config is not stored under a name, if it is not. -/
def refusal? (validate : Bool) (name : String) (config : Json) : Option ManagerError :=
  if !config.isObject then some (.notMapping name config.typeName)
  else if validate then compileError? name config
  else none

/-- All entries, or the error of the first one that is refused. -/
def accept (validate : Bool) (entries : List (String × Json)) :
    Except ManagerError (List (String × Json)) :=
  (entries.findSome? fun e => refusal? validate e.1 e.2).elim (.ok entries) .error

theorem outcome_compileConfig (name : String) (config : Json) :
    (compileConfig name config).outcome = compilation name config := by
  simp only [compileConfig, compilation]
  cases (Feature.compile name config).outcome <;> rfl

theorem outcome_checkConfig (validate : Bool) (name : String) (config : Json) :
    (checkConfig validate name config).outcome =
      (refusal? validate name config).elim (.ok ()) .error := by
  unfold checkConfig refusal? compileError?
  cases config.isObject with
  | false => rfl
  | true =>
    cases validate with
    | false => rfl
    | true =>
      simp only [Bool.not_true, Bool.false_eq_true, if_false, if_true, Report.outcome_bind,
        outcome_compileConfig]
      cases compilation name config <;> rfl

theorem outcome_checkConfigs (validate : Bool) (entries : List (String × Json)) :
    (checkConfigs validate entries).outcome = (accept validate entries).map fun _ => () := by
  induction entries with
  | nil => rfl
  | cons e rest ih =>
    obtain ⟨name, config⟩ := e
    simp only [checkConfigs, Report.outcome_bind, outcome_checkConfig, ih, accept,
      List.findSome?_cons]
    cases refusal? validate name config with
    | some e => rfl
    | none =>
      simp only [Option.elim, Except.bind]
      cases rest.findSome? fun e => refusal? validate e.1 e.2 <;> rfl

theorem outcome_validateConfigs (entries : List (String × StoredConfig)) :
    (validateConfigs entries).outcome =
      (entries.findSome? fun e => compileError? e.1 e.2.config).elim (.ok ()) .error := by
  induction entries with
  | nil => rfl
  | cons e rest ih =>
    obtain ⟨name, entry⟩ := e
    simp only [validateConfigs, Report.outcome_bind, outcome_compileConfig, ih, compileError?,
      List.findSome?_cons]
    cases compilation name entry.config <;> rfl

namespace RuleManager

/-! ## Writing -/

/-- The manager after the entries of a write are stored, if there are any to store. -/
def written (m : RuleManager) : Except ManagerError (List (String × Json)) → RuleManager
  | .ok entries => { m with store := m.store.insertMany entries }
  | .error _ => m

/-- The entries of a document, if all of them are stored. -/
def acceptDocument (validate : Bool) (content : String) (format : DocumentFormat) :
    Except ManagerError (List (String × Json)) :=
  ((Document.features content format).outcome.mapError .document).bind (accept validate)

/-- The entries of a file, if all of them are stored. -/
def acceptFile (validate : Bool) (files : Files) (path : String) :
    Except ManagerError (List (String × Json)) :=
  match fileText? files path with
  | none => .error .unreadableFile
  | some content => acceptDocument validate content (.ofPath path)

theorem run_insert (name : String) (config : Json) (m : RuleManager) :
    ((insert name config).run m).outcome =
        (accept m.settings.validateOnAdd [(name, config)]).map (fun _ => ()) ∧
      ((insert name config).run m).after =
        m.written (accept m.settings.validateOnAdd [(name, config)]) := by
  simp only [insert, updateStore, Call.outcome_bind, Call.after_bind, Call.run_state,
    Call.run_ofReport, Call.run_modify, Call.run_emit, Except.bind, outcome_checkConfig, accept,
    List.findSome?_cons, List.findSome?_nil]
  cases refusal? m.settings.validateOnAdd name config <;> exact ⟨rfl, rfl⟩

theorem run_extend (entries : List (String × Json)) (m : RuleManager) :
    ((extend entries).run m).outcome =
        (accept m.settings.validateOnAdd entries).map (fun _ => ()) ∧
      ((extend entries).run m).after = m.written (accept m.settings.validateOnAdd entries) := by
  simp only [extend, updateStore, Call.outcome_bind, Call.after_bind, Call.run_state,
    Call.run_ofReport, Call.run_modify, Call.run_emit, Except.bind, outcome_checkConfigs, accept]
  cases entries.findSome? fun e => refusal? m.settings.validateOnAdd e.1 e.2 <;> exact ⟨rfl, rfl⟩

theorem run_loadDocument (content : String) (format : DocumentFormat) (m : RuleManager) :
    ((loadDocument content format).run m).outcome =
        (acceptDocument m.settings.validateOnAdd content format).map List.length ∧
      ((loadDocument content format).run m).after =
        m.written (acceptDocument m.settings.validateOnAdd content format) := by
  simp only [loadDocument, Call.outcome_bind, Call.after_bind, Call.run_ofReport, Call.run_emit,
    Call.run_pure, Report.outcome_mapError, acceptDocument]
  cases (Document.features content format).outcome.mapError ManagerError.document with
  | error e => exact ⟨rfl, rfl⟩
  | ok entries =>
    simp only [Except.bind, (run_extend entries m).1, (run_extend entries m).2]
    unfold accept
    cases entries.findSome? fun e => refusal? m.settings.validateOnAdd e.1 e.2 <;> exact ⟨rfl, rfl⟩

theorem run_loadFile (files : Files) (path : String) (m : RuleManager) :
    ((loadFile files path).run m).outcome =
        (acceptFile m.settings.validateOnAdd files path).map List.length ∧
      ((loadFile files path).run m).after =
        m.written (acceptFile m.settings.validateOnAdd files path) := by
  unfold loadFile acceptFile
  cases fileText? files path with
  | none => exact ⟨rfl, rfl⟩
  | some content =>
    simp only [Call.outcome_bind, Call.after_bind, Call.run_emit, Call.run_pure,
      (run_loadDocument content (.ofPath path) m).1, (run_loadDocument content (.ofPath path) m).2]
    cases acceptDocument m.settings.validateOnAdd content (.ofPath path) <;> exact ⟨rfl, rfl⟩

/-! ## Asking -/

theorem run_validateEntries (entries : List (String × StoredConfig)) (m : RuleManager) :
    ((validateEntries entries).run m).outcome =
        (entries.findSome? fun e => compileError? e.1 e.2.config).elim (.ok entries.length)
          .error ∧
      ((validateEntries entries).run m).after = m := by
  simp only [validateEntries, Call.outcome_bind, Call.after_bind, Call.run_ofReport,
    Call.run_emit, Call.run_pure, Except.bind, outcome_validateConfigs]
  cases entries.findSome? fun e => compileError? e.1 e.2.config <;> exact ⟨rfl, rfl⟩

/-- The stored configs are validated in the order of their names. -/
theorem run_validateAll_eq (m : RuleManager) :
    validateAll.run m = (validateEntries m.store.configs.entries).run m :=
  Call.run_bind_of_ok (c := .state) rfl _

theorem run_validateAll (m : RuleManager) :
    (validateAll.run m).outcome =
        (m.store.configs.entries.findSome? fun e => compileError? e.1 e.2.config).elim
          (.ok m.store.size) .error ∧
      (validateAll.run m).after = m := by
  rw [run_validateAll_eq]
  exact run_validateEntries m.store.configs.entries m

theorem run_compileEntry (name : String) (entry : StoredConfig) (m : RuleManager) :
    ((compileEntry name entry).run m).outcome =
        (compilation name entry.config).map (⟨·, m.compilations + 1⟩) ∧
      ((compileEntry name entry).run m).after =
        match compilation name entry.config with
        | .ok _ => { m with compilations := m.compilations + 1 }
        | .error _ => m := by
  simp only [compileEntry, Call.outcome_bind, Call.after_bind, Call.run_state, Call.run_ofReport,
    Call.run_modify, Call.run_pure, Except.bind, outcome_compileConfig]
  cases compilation name entry.config <;> exact ⟨rfl, rfl⟩

theorem run_settleFeature (name : String) (revision : Nat) (c : Compiled) (m : RuleManager) :
    ((settleFeature name revision c).run m).outcome =
        .ok ((m.store.keep name revision c).2.getD c) ∧
      ((settleFeature name revision c).run m).after =
        { m with store := (m.store.keep name revision c).1 } := by
  simp only [settleFeature, updateStore, Call.outcome_bind, Call.after_bind, Call.run_state,
    Call.run_modify, Except.bind]
  cases (m.store.keep name revision c).2 <;> exact ⟨rfl, rfl⟩

theorem run_judge (name : String) (raw : KeyMap Json) (c : Compiled) (m : RuleManager) :
    ((judge name raw c).run m).outcome =
        ((m.builder raw).mapError (.context name)).map c.feature.grants ∧
      ((judge name raw c).run m).after = m := by
  simp only [judge, Call.outcome_bind, Call.after_bind, Call.run_state, Except.bind]
  cases m.builder raw with
  | error e => exact ⟨rfl, rfl⟩
  | ok ctx =>
    have grants : c.feature.grants ctx = (c.feature.grantingSegment? ctx).isSome := rfl
    change _ = Except.ok (c.feature.grants ctx) ∧ _
    rw [grants]
    dsimp only
    cases c.feature.grantingSegment? ctx <;> exact ⟨rfl, rfl⟩

/-- What asking for a feature returns: nothing, the compiled feature that is there, or what its config
compiles to, unless another compilation was kept before. -/
theorem run_feature (name : String) (m : RuleManager) :
    ((feature name).run m).outcome =
        (match m.store.lookup name with
        | .unconfigured => .ok none
        | .compiled c => .ok (some c)
        | .configured entry => (compilation name entry.config).map fun f =>
          some ((m.store.keep name entry.revision ⟨f, m.compilations + 1⟩).2.getD
            ⟨f, m.compilations + 1⟩)) ∧
      ((feature name).run m).after =
        match m.store.lookup name with
        | .configured entry =>
          match compilation name entry.config with
          | .ok f => { m with
              store := (m.store.keep name entry.revision ⟨f, m.compilations + 1⟩).1
              compilations := m.compilations + 1 }
          | .error _ => m
        | _ => m := by
  simp only [feature, featureDuring, startFeature, Call.outcome_bind, Call.after_bind,
    Call.run_state, Except.bind]
  cases m.store.lookup name with
  | unconfigured => exact ⟨rfl, rfl⟩
  | compiled c => exact ⟨rfl, rfl⟩
  | configured entry =>
    obtain ⟨outcome, after⟩ := run_compileEntry name entry m
    simp only [Call.outcome_bind, Call.after_bind, Call.run_pure, outcome, after]
    cases compilation name entry.config with
    | error e => exact ⟨rfl, rfl⟩
    | ok f =>
      simp only [Except.map, Except.bind, Call.outcome_bind, Call.after_bind, Call.run_pure,
        (run_settleFeature _ _ _ _).1, (run_settleFeature _ _ _ _).2, and_self]

theorem builder_feature (name : String) (m : RuleManager) :
    ((feature name).run m).after.builder = m.builder := by
  rw [(run_feature name m).2]
  cases m.store.lookup name with
  | unconfigured | compiled => rfl
  | configured entry =>
    dsimp only
    cases compilation name entry.config <;> rfl

theorem run_has (name : String) (raw : KeyMap Json) (m : RuleManager) :
    ((has name raw).run m).outcome =
        (((feature name).run m).outcome.bind fun
          | none => .ok false
          | some c => ((m.builder raw).mapError (.context name)).map c.feature.grants) ∧
      ((has name raw).run m).after = ((feature name).run m).after := by
  have builder := builder_feature name m
  simp only [has, Call.outcome_bind, Call.after_bind]
  cases ((feature name).run m).outcome with
  | error e => exact ⟨rfl, rfl⟩
  | ok found =>
    cases found with
    | none => exact ⟨rfl, rfl⟩
    | some c => simp only [Except.bind, (run_judge name raw c _).1, (run_judge name raw c _).2,
        builder, and_self]

end RuleManager

end FeatureGate
