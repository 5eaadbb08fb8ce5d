import FeatureGate.Proofs.Loading

/-!
# Eager validation

A manager that validates on every write only ever stores configs that compile. So nothing that is
asked of it later fails for the configuration, and only the building of a context can fail. What is
refused on writing is exactly what would fail on asking.
-/

namespace FeatureGate

theorem compilation_eq_error_iff {name : String} {config : Json} {e : ManagerError} :
    compilation name config = .error e ↔
      ∃ source, (Feature.compile name config).outcome = .error source ∧
        e = .compile name source := by
  unfold compilation
  cases (Feature.compile name config).outcome with
  | ok f => exact ⟨nofun, nofun⟩
  | error source =>
    constructor
    · rintro ⟨⟩
      exact ⟨source, rfl, rfl⟩
    · rintro ⟨_, ⟨⟩, rfl⟩
      rfl

/-- Whether a config compiles under a name. -/
def Compiles (name : String) (config : Json) : Prop :=
  ∃ f, (Feature.compile name config).outcome = .ok f

theorem Compiles.compilation {name : String} {config : Json} (h : Compiles name config) :
    ∃ f, compilation name config = .ok f := by
  obtain ⟨f, compiled⟩ := h
  exact ⟨f, compilation_eq_ok_iff.mpr compiled⟩

theorem compileError?_eq_none {name : String} {config : Json} (h : Compiles name config) :
    compileError? name config = none := by
  obtain ⟨f, compiled⟩ := h.compilation
  rw [compileError?, compiled]

/-! ## Accepted entries -/

theorem compiles_of_passed {name : String} {config : Json}
    (h : refusal? true name config = none) : Compiles name config := by
  cases compiled : (Feature.compile name config).outcome with
  | ok f => exact ⟨f, compiled⟩
  | error source =>
    have none := refusal?_eq_none_iff.mp h
    cases shape : config.isObject with
    | false => exact absurd (.notMapping shape) (none _)
    | true => exact absurd (.compile shape rfl source compiled) (none _)

theorem compiles_of_accept {entries listed : List (String × Json)}
    (h : accept true entries = .ok listed) : ∀ e ∈ listed, Compiles e.1 e.2 := by
  rcases accept_cases true entries with ⟨accepted, passed⟩ | ⟨-, -, -, -, error, -, -, -, failed⟩
  · obtain rfl := Except.ok.inj (accepted.symm.trans h)
    exact fun e member => compiles_of_passed (passed e member)
  · rw [failed] at h
    cases h

theorem compiles_of_acceptDocument {content : String} {format : DocumentFormat}
    {listed : List (String × Json)}
    (h : RuleManager.acceptDocument true content format = .ok listed) :
    ∀ e ∈ listed, Compiles e.1 e.2 := by
  rw [RuleManager.acceptDocument] at h
  cases read : (Document.features content format).outcome with
  | error e =>
    rw [read] at h
    cases h
  | ok entries =>
    rw [read] at h
    exact compiles_of_accept h

namespace Interleaving

theorem Write.compiles_of_accepted {w : Write} {listed : List (String × Json)}
    (h : w.accepted true = .ok listed) : ∀ e ∈ listed, Compiles e.1 e.2 := by
  cases w with
  | insert name config => exact compiles_of_accept h
  | extend entries => exact compiles_of_accept h
  | loadDocument content format => exact compiles_of_acceptDocument h
  | loadFile files path =>
    rw [accepted, RuleManager.acceptFile] at h
    cases read : RuleManager.fileText? files path with
    | none =>
      rw [read] at h
      cases h
    | some content =>
      rw [read] at h
      exact compiles_of_acceptDocument h

theorem compiles_of_gather {ws : List Write} {entries : List (String × Json)}
    (h : gather true ws = .ok entries) : ∀ e ∈ entries, Compiles e.1 e.2 := by
  obtain ⟨passed, rfl⟩ := gather_eq_ok h
  intro e member
  obtain ⟨w, source, listed⟩ := List.mem_flatMap.mp member
  exact w.compiles_of_accepted (Write.accepted_of_passed (passed w source)) e listed

end Interleaving

open Interleaving

/-! ## Checked managers -/

namespace RuleManager

/-- Whether a manager validates on writing and holds nothing that does not compile. -/
structure Checked (m : RuleManager) : Prop where
  eager : m.settings.validateOnAdd = true
  stored : ∀ name entry, m.store.configs.get? name = some entry → Compiles name entry.config

theorem checked_new (builder : ContextBuilder) {settings : ManagerSettings}
    (eager : settings.validateOnAdd = true) : (new builder settings).Checked where
  eager := eager
  stored := by
    intro name entry found
    cases found

theorem Checked.insertMany {m : RuleManager} (h : m.Checked) {entries : List (String × Json)}
    (compiles : ∀ e ∈ entries, Compiles e.1 e.2) :
    Checked { m with store := m.store.insertMany entries } where
  eager := h.eager
  stored := by
    intro name entry found
    by_cases listed : ∃ e ∈ entries, e.1 = name
    · obtain ⟨before, config, rest, rfl, last⟩ := Store.exists_last listed
      have stored := (Store.insertMany_listed last m.store before config).1
      obtain rfl := Option.some.inj (stored.symm.trans found)
      exact compiles (name, config) (List.mem_append_right before List.mem_cons_self)
    · have unlisted : ∀ e ∈ entries, e.1 ≠ name := fun e member same => listed ⟨e, member, same⟩
      have kept := (Store.insertMany_unlisted unlisted m.store).1
      exact h.stored name entry (kept.symm.trans found)

/-- No write brings in a config that does not compile. -/
theorem Checked.written {m : RuleManager} (h : m.Checked) (w : Write) :
    (m.written (w.accepted m.settings.validateOnAdd)).Checked := by
  rw [h.eager]
  cases accepted : w.accepted true with
  | error e => exact h
  | ok entries => exact h.insertMany (Write.compiles_of_accepted accepted)

/-! ## Assembled managers -/

theorem checked_build {a : Assembly} (eager : a.settings.validateOnAdd = true) {files : Files}
    {m : RuleManager} (done : (a.build files).outcome = .ok m) : m.Checked := by
  rw [Assembly.outcome_build, eager] at done
  cases gathered : gather true (a.sources files) with
  | error e =>
    rw [gathered] at done
    cases done
  | ok entries =>
    rw [gathered] at done
    obtain rfl := Except.ok.inj done
    exact (checked_new _ eager).insertMany (compiles_of_gather gathered)

/-- The managers that are made to validate on writing: new ones, and assembled ones. -/
inductive MadeEager : RuleManager → Prop
  | new (builder : ContextBuilder) : MadeEager (.new builder ⟨true⟩)
  | built (a : Assembly) (files : Files) (m : RuleManager)
      (eager : a.settings.validateOnAdd = true) (done : (a.build files).outcome = .ok m) :
      MadeEager m

theorem MadeEager.checked {m : RuleManager} (h : m.MadeEager) : m.Checked := by
  cases h with
  | new builder => exact checked_new builder rfl
  | built a files m eager done => exact checked_build eager done

/-! ## Asking a checked manager -/

/-- A lookup succeeds if the config of the name compiles, or if there is none. -/
theorem feature_ok_of_compiles {m : RuleManager} {name : String}
    (sound : ∀ entry, m.store.configs.get? name = some entry → Compiles name entry.config) :
    ∃ found, ((feature name).run m).outcome = .ok found := by
  rw [(run_feature name m).1]
  unfold Store.lookup
  cases m.store.compiled.get? name with
  | some c => exact ⟨some c, rfl⟩
  | none =>
    cases found : m.store.configs.get? name with
    | none => exact ⟨none, rfl⟩
    | some entry =>
      obtain ⟨f, compiled⟩ := (sound entry found).compilation
      simp only [compiled, Except.map]
      exact ⟨_, rfl⟩

theorem Checked.feature_ok {m : RuleManager} (h : m.Checked) (name : String) :
    ∃ found, ((feature name).run m).outcome = .ok found :=
  feature_ok_of_compiles (h.stored name)

theorem Checked.validateAll_ok {m : RuleManager} (h : m.Checked) :
    (validateAll.run m).outcome = .ok m.size := by
  have sound :
      (m.store.configs.entries.findSome? fun e => compileError? e.1 e.2.config) = none := by
    rw [List.findSome?_eq_none_iff]
    intro e member
    have distinct := m.store.configs.nodup_keys
    have found := (KeyMap.findEntry_eq_some_iff distinct).mpr member
    exact compileError?_eq_none (h.stored e.1 e.2 found)
  rw [(run_validateAll m).1, sound]
  rfl

theorem Checked.has_error {m : RuleManager} (h : m.Checked) {name : String} {raw : KeyMap Json}
    {e : ManagerError} (failed : ((has name raw).run m).outcome = .error e) :
    ∃ source, e = .context name source ∧ m.builder raw = .error source := by
  obtain ⟨found, asked⟩ := h.feature_ok name
  rw [(run_has name raw m).1, asked] at failed
  cases found with
  | none => cases failed
  | some c =>
    cases built : m.builder raw with
    | ok ctx => simp [Except.bind, built, Except.mapError, Except.map] at failed
    | error source =>
      simp only [Except.bind, built, Except.mapError, Except.map, Except.error.injEq] at failed
      exact ⟨source, failed.symm, rfl⟩

end RuleManager

namespace Interleaving

/-! ## Steps and runs -/

/-- Whether an answer about a feature is free of errors of the configuration. -/
def Answer.Clean {φ : Type} : Answer φ → Prop
  | feature outcome => ∃ found, outcome = .ok found
  | granted outcome => ∀ e, outcome = .error e → ∃ name source, e = .context name source
  | _ => True

/-- Snapshots in flight compile, and what was returned is clean. -/
def Stage.Checked : Stage → Prop
  | snapshot name _ entry => Compiles name entry.config
  | returned reply => reply.answer.Clean
  | _ => True

theorem Stage.checked_found (name : String) (c : Compiled) (q : Question) :
    (Stage.found name c q).Checked := by
  cases q with
  | feature => exact ⟨some c, rfl⟩
  | has raw => trivial

theorem Write.clean_confirm (w : Write) (batch : Except ManagerError (List (String × Json))) :
    (w.confirm batch : Answer Compiled).Clean := by
  cases w <;> trivial

theorem clean_judged (name : String) (built : Except ContextError Context)
    (grants : Context → Bool) :
    (Answer.granted ((built.mapError (.context name)).map grants) : Answer Compiled).Clean := by
  intro e failed
  cases built with
  | ok ctx => cases failed
  | error source =>
    obtain rfl := Except.error.inj failed
    exact ⟨name, source, rfl⟩

theorem Step.checked {m m' : RuleManager} {s t : Stage} (h : Step m s t m') (manager : m.Checked)
    (stage : s.Checked) : m'.Checked ∧ t.Checked := by
  cases h with
  | wrote w => exact ⟨manager.written w, w.clean_confirm _⟩
  | cleared =>
    refine ⟨⟨manager.eager, ?_⟩, trivial⟩
    intro name entry found
    cases found
  | validated => exact ⟨manager, trivial⟩
  | absent name q =>
    refine ⟨manager, ?_⟩
    cases q with
    | feature => exact ⟨none, rfl⟩
    | has raw => nofun
  | hit name q c _ | outrun name q _ _ c _ _ | stale name q _ c _ =>
    exact ⟨manager, Stage.checked_found name c q⟩
  | looked name q entry configured => exact ⟨manager, manager.stored name entry configured⟩
  | failed name q entry e faulty =>
    obtain ⟨f, compiled⟩ := Compiles.compilation stage
    rw [compiled] at faulty
    cases faulty
  | compiled => exact ⟨⟨manager.eager, manager.stored⟩, trivial⟩
  | kept name q entry c => exact ⟨⟨manager.eager, manager.stored⟩, Stage.checked_found name c q⟩
  | judged name raw c => exact ⟨manager, clean_judged name (m.builder raw) c.feature.grants⟩
  | rested reply => exact ⟨manager, stage⟩

/-- What a moment of a run is without any error of the configuration. -/
structure Faultless (w : World) : Prop where
  /-- Every stored config compiles. -/
  stored : ∀ name entry, w.manager.store.configs.get? name = some entry →
    Compiles name entry.config
  feature : ∀ name, ∃ found, ((RuleManager.feature name).run w.manager).outcome = .ok found
  validateAll : (RuleManager.validateAll.run w.manager).outcome = .ok w.manager.size
  /-- A question fails only if no context can be built. -/
  has : ∀ name raw e, ((RuleManager.has name raw).run w.manager).outcome = .error e →
    ∃ source, e = .context name source ∧ w.manager.builder raw = .error source
  /-- The calls of the run itself have returned no such error either. -/
  returned : ∀ reply, Stage.returned reply ∈ w.calls → reply.answer.Clean

theorem faultless_of_checked {w : World} (h : w.Each RuleManager.Checked Stage.Checked) :
    Faultless w where
  stored := h.manager.stored
  feature := h.manager.feature_ok
  validateAll := h.manager.validateAll_ok
  has := by
    intro name raw e failed
    exact h.manager.has_error failed
  returned := by
    intro reply member
    exact h.calls _ member

end Interleaving

/-! ## Refused now or failing later -/

namespace RuleManager

variable {name : String} {config : Json}

theorem run_insert_of_refused {m : RuleManager} {e : ManagerError}
    (refused : Refused m.settings.validateOnAdd name config e) :
    ((insert name config).run m).outcome = .error e := by
  have first : refusal? m.settings.validateOnAdd name config = some e :=
    refusal?_eq_some_iff.mpr refused
  rw [(run_insert name config m).1, accept, List.findSome?_cons, first]
  rfl

/-- A manager that validates refuses exactly the mappings that do not compile. -/
theorem insert_error_iff {m : RuleManager} (eager : m.settings.validateOnAdd = true)
    (shape : config.isObject = true) (e : ConfigError) :
    ((insert name config).run m).outcome = .error (.compile name e) ↔
      (Feature.compile name config).outcome = .error e := by
  constructor
  · intro failed
    cases compiled : (Feature.compile name config).outcome with
    | ok f =>
      have none : compileError? name config = none := compileError?_eq_none ⟨f, compiled⟩
      have passed : refusal? m.settings.validateOnAdd name config = Option.none := by
        simp [refusal?, shape, none]
      rw [(run_insert_of_passed passed).1] at failed
      cases failed
    | error source =>
      have refused := run_insert_of_refused (.compile shape eager source compiled)
      rw [refused] at failed
      obtain ⟨-, rfl⟩ := ManagerError.compile.inj (Except.error.inj failed)
      rfl
  · intro faulty
    exact run_insert_of_refused (.compile shape eager e faulty)

/-- A manager that does not validate stores every mapping. -/
theorem run_insert_of_lazy {m : RuleManager} (deferred : m.settings.validateOnAdd = false)
    (name : String) (shape : config.isObject = true) :
    ((insert name config).run m).outcome = .ok () ∧
      ((insert name config).run m).after = { m with store := m.store.insert name config } := by
  apply run_insert_of_passed
  simp [refusal?, shape, deferred]

/-- The first question about a config after it was stored compiles it. -/
theorem feature_inserted (m : RuleManager) (name : String) (config : Json) :
    ∃ keep : Feature → Compiled,
      ((feature name).run { m with store := m.store.insert name config }).outcome =
        (compilation name config).map fun f => some (keep f) := by
  have lookup : (m.store.insert name config).lookup name =
      .configured ⟨config, m.store.lastRevision + 1⟩ := by
    simp [Store.lookup, Store.insert, KeyMap.get?_erase]
  rw [(run_feature name _).1]
  simp only [lookup]
  exact ⟨_, rfl⟩

theorem has_inserted_error_iff {m : RuleManager} (raw : KeyMap Json) (e : ConfigError) :
    ((has name raw).run { m with store := m.store.insert name config }).outcome =
        .error (.compile name e) ↔
      (Feature.compile name config).outcome = .error e := by
  obtain ⟨found, asked⟩ := feature_inserted m name config
  rw [(run_has name raw _).1, asked]
  cases compiled : (Feature.compile name config).outcome with
  | ok f =>
    have kept := compilation_eq_ok_iff.mpr compiled
    simp only [kept, Except.map, Except.bind]
    cases m.builder raw with
    | ok ctx => simp [Except.mapError]
    | error source => simp [Except.mapError]
  | error source =>
    have failed := compilation_eq_error_iff.mpr ⟨source, compiled, rfl⟩
    simp [failed, Except.map, Except.bind]

end RuleManager

open RuleManager

/-- In every run of a manager that was made to validate, nothing that is asked ever fails for the
configuration. And an insertion fails to compile on a manager that validates exactly if, on one that
does not, it succeeds and the same error comes up as soon as the feature is asked for. -/
theorem eager_validation :
    (∀ m : RuleManager, m.MadeEager → ∀ moves, Faultless ((World.mk m []).run moves)) ∧
      ∀ eager deferred : RuleManager, eager.settings.validateOnAdd = true →
        deferred.settings.validateOnAdd = false → ∀ name config, config.isObject = true →
        ((insert name config).run deferred).outcome = .ok () ∧
          ∀ raw (e : ConfigError),
            ((insert name config).run eager).outcome = .error (.compile name e) ↔
              ((has name raw).run ((insert name config).run deferred).after).outcome =
                .error (.compile name e) := by
  constructor
  · intro m made moves
    have start : (World.mk m []).Each Checked Stage.Checked := ⟨made.checked, nofun⟩
    have run := start.run (fun r => trivial) (fun _ _ _ _ step => step.checked) moves
    exact faultless_of_checked run
  · intro eager deferred hEager hDeferred name config shape
    obtain ⟨outcome, after⟩ := run_insert_of_lazy hDeferred name shape
    refine ⟨outcome, ?_⟩
    intro raw e
    rw [after, has_inserted_error_iff, insert_error_iff hEager shape]

/-- A config whose segments are no list. -/
def unlisted : Json := .object [("segments", .bool true)]

/-- Why it does not compile. -/
def unlistedError : ConfigError := .wrongType "segments" .sequence "bool"

/-- A faulty config is refused at once, and the run goes on without faults; where nothing is
validated the same error comes with the first question. -/
theorem eager_validation_unlisted :
    Faultless ((World.mk (.new .asIs ⟨true⟩) []).run
        [.begin (.write (.insert "f" unlisted)), .advance 0,
          .begin (.write (.insert "f" (.object []))), .advance 1, .begin (.ask "f" (.has ∅)),
          .advance 2, .advance 2]) ∧
      ((insert "f" unlisted).run (.new .asIs ⟨true⟩)).outcome =
        .error (.compile "f" unlistedError) ∧
      ((has "f" ∅).run ((insert "f" unlisted).run (.new .asIs ⟨false⟩)).after).outcome =
        .error (.compile "f" unlistedError) := by
  have refused : ((insert "f" unlisted).run (.new .asIs ⟨true⟩)).outcome =
      .error (.compile "f" unlistedError) := by rfl
  have same := (eager_validation.2 (.new .asIs ⟨true⟩) (.new .asIs ⟨false⟩) rfl rfl "f" unlisted
    rfl).2 ∅ unlistedError
  exact ⟨eager_validation.1 _ (.new .asIs) _, refused, same.mp refused⟩

end FeatureGate
