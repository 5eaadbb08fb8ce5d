import FeatureGate.Manager.Assembly
import FeatureGate.Manager.Flags
import FeatureGate.Proofs.Calls
import FeatureGate.Proofs.Documents

/-!
# Writes are all or nothing

A batch is checked as a whole before any of it is stored. Either every entry passes, and the batch
leaves what inserting its entries one by one leaves, or the first entry that does not pass decides
the error and the manager stays as it was. Documents and files are batches of the entries they list.
-/

namespace FeatureGate

/-! ## The store after a batch -/

namespace Store

variable {name : String} {entries : List (String × Json)}

theorem insertMany_append (st : Store) (xs ys : List (String × Json)) :
    st.insertMany (xs ++ ys) = (st.insertMany xs).insertMany ys := List.foldl_append

theorem lastRevision_insertMany (st : Store) (entries : List (String × Json)) :
    (st.insertMany entries).lastRevision = st.lastRevision + entries.length := by
  induction entries generalizing st with
  | nil => rfl
  | cons e rest ih =>
    have later : ((st.insert e.1 e.2).insertMany rest).lastRevision =
        st.lastRevision + 1 + rest.length := ih (st.insert e.1 e.2)
    rw [List.length_cons]
    change ((st.insert e.1 e.2).insertMany rest).lastRevision = _
    omega

/-- A name that is not listed keeps its config and its compiled feature. -/
theorem insertMany_unlisted (unlisted : ∀ e ∈ entries, e.1 ≠ name) (st : Store) :
    (st.insertMany entries).configs.get? name = st.configs.get? name ∧
      (st.insertMany entries).compiled.get? name = st.compiled.get? name := by
  induction entries generalizing st with
  | nil => exact ⟨rfl, rfl⟩
  | cons e rest ih =>
    obtain ⟨differs, others⟩ := List.forall_mem_cons.mp unlisted
    obtain ⟨configs, compiled⟩ := ih others (st.insert e.1 e.2)
    constructor
    · refine configs.trans ?_
      rw [insert, KeyMap.get?_insert, if_neg differs]
    · refine compiled.trans ?_
      rw [insert, KeyMap.get?_erase, if_neg differs]

/-- A name has the config that is listed last for it, under the revision of that entry. -/
theorem insertMany_listed {rest : List (String × Json)} (last : ∀ e ∈ rest, e.1 ≠ name)
    (st : Store) (before : List (String × Json)) (config : Json) :
    (st.insertMany (before ++ (name, config) :: rest)).configs.get? name =
        some ⟨config, st.lastRevision + before.length + 1⟩ ∧
      (st.insertMany (before ++ (name, config) :: rest)).compiled.get? name = none := by
  have parts : st.insertMany (before ++ (name, config) :: rest) =
      ((st.insertMany before).insert name config).insertMany rest := st.insertMany_append _ _
  obtain ⟨configs, compiled⟩ :=
    insertMany_unlisted last ((st.insertMany before).insert name config)
  rw [parts]
  constructor
  · rw [configs, insert, KeyMap.get?_insert, if_pos rfl, lastRevision_insertMany]
  · rw [compiled, insert, KeyMap.get?_erase, if_pos rfl]

/-- The last entry of a name that is listed. -/
theorem exists_last (listed : ∃ e ∈ entries, e.1 = name) :
    ∃ before config rest, entries = before ++ (name, config) :: rest ∧ ∀ e ∈ rest, e.1 ≠ name := by
  induction entries with
  | nil =>
    obtain ⟨e, member, -⟩ := listed
    cases member
  | cons e rest ih =>
    by_cases again : ∃ e ∈ rest, e.1 = name
    · obtain ⟨before, config, after, rfl, last⟩ := ih again
      exact ⟨e :: before, config, after, rfl, last⟩
    · obtain ⟨found, member, named⟩ := listed
      have first : found = e := by
        rcases List.mem_cons.mp member with first | later
        · exact first
        · exact absurd ⟨found, later, named⟩ again
      obtain ⟨k, config⟩ := e
      subst first
      obtain rfl : k = name := named
      exact ⟨[], config, rest, rfl, fun e later same => again ⟨e, later, same⟩⟩

theorem insertMany_uncompiled (listed : ∃ e ∈ entries, e.1 = name) (st : Store) :
    (st.insertMany entries).compiled.get? name = none := by
  obtain ⟨before, config, rest, rfl, last⟩ := exists_last listed
  exact (insertMany_listed last st before config).2

end Store

/-! ## Batches -/

/-- Why an entry is not stored: its config is no mapping, or it does not compile and is asked to. -/
inductive Refused (validate : Bool) (name : String) (config : Json) : ManagerError → Prop
  | notMapping (shape : config.isObject = false) :
      Refused validate name config (.notMapping name config.typeName)
  | compile (shape : config.isObject = true) (eager : validate = true) (e : ConfigError)
      (faulty : (Feature.compile name config).outcome = .error e) :
      Refused validate name config (.compile name e)

theorem refusal?_eq_some_iff {validate : Bool} {name : String} {config : Json} {e : ManagerError} :
    refusal? validate name config = some e ↔ Refused validate name config e := by
  unfold refusal? compileError? compilation
  constructor
  · intro h
    cases shape : config.isObject with
    | false =>
      rw [shape] at h
      obtain rfl := Option.some.inj h
      exact .notMapping shape
    | true =>
      cases validate with
      | false => simp [shape] at h
      | true =>
        cases compiled : (Feature.compile name config).outcome with
        | ok f => simp [shape, compiled, Except.mapError] at h
        | error source =>
          simp only [shape, compiled, Except.mapError, Bool.not_true, Bool.false_eq_true, if_false,
            if_true, Option.some.injEq] at h
          subst h
          exact .compile shape rfl source compiled
  · intro h
    cases h with
    | notMapping shape => simp [shape]
    | compile shape eager source faulty => simp [shape, eager, faulty, Except.mapError]

theorem refusal?_eq_none_iff {validate : Bool} {name : String} {config : Json} :
    refusal? validate name config = none ↔ ∀ e, ¬ Refused validate name config e := by
  rw [Option.eq_none_iff_forall_ne_some]
  exact forall_congr' fun e => not_congr refusal?_eq_some_iff

/-- A batch is accepted if no entry is refused, and else its first refused entry decides. -/
theorem accept_cases (validate : Bool) (entries : List (String × Json)) :
    (accept validate entries = .ok entries ∧ ∀ e ∈ entries, refusal? validate e.1 e.2 = none) ∨
      ∃ before name config rest error, entries = before ++ (name, config) :: rest ∧
        (∀ e ∈ before, refusal? validate e.1 e.2 = none) ∧
        refusal? validate name config = some error ∧ accept validate entries = .error error := by
  unfold accept
  cases found : entries.findSome? fun e => refusal? validate e.1 e.2 with
  | none => exact .inl ⟨rfl, List.findSome?_eq_none_iff.mp found⟩
  | some error =>
    obtain ⟨before, ⟨name, config⟩, rest, parts, refused, passed⟩ :=
      List.findSome?_eq_some_iff.mp found
    exact .inr ⟨before, name, config, rest, error, parts, passed, refused, rfl⟩

namespace RuleManager

theorem run_insert_of_passed {m : RuleManager} {name : String} {config : Json}
    (passed : refusal? m.settings.validateOnAdd name config = none) :
    ((insert name config).run m).outcome = .ok () ∧
      ((insert name config).run m).after = { m with store := m.store.insert name config } := by
  obtain ⟨outcome, after⟩ := run_insert name config m
  have accepted : accept m.settings.validateOnAdd [(name, config)] = .ok [(name, config)] := by
    simp [accept, passed]
  rw [outcome, after, accepted]
  exact ⟨rfl, rfl⟩

/-- Entries that pass are inserted one by one. -/
theorem run_insertFeatures_of_passed {entries : List (String × Json)} {m : RuleManager}
    (passed : ∀ e ∈ entries, refusal? m.settings.validateOnAdd e.1 e.2 = none) :
    ((Assembly.insertFeatures entries).run m).outcome = .ok () ∧
      ((Assembly.insertFeatures entries).run m).after =
        { m with store := m.store.insertMany entries } := by
  induction entries generalizing m with
  | nil => exact ⟨rfl, rfl⟩
  | cons e rest ih =>
    obtain ⟨first, others⟩ := List.forall_mem_cons.mp passed
    obtain ⟨outcome, after⟩ := run_insert_of_passed first
    have later := ih (m := { m with store := m.store.insert e.1 e.2 }) others
    simp only [Assembly.insertFeatures, Call.outcome_bind, Call.after_bind, outcome, after]
    exact later

/-- What a stored batch leaves behind. -/
structure Stored (m : RuleManager) (entries : List (String × Json)) (after : RuleManager) :
    Prop where
  /-- Nothing but the store has changed, and in it the entries are inserted in turn. -/
  exact : after = { m with store := m.store.insertMany entries }
  /-- Single insertions of the entries succeed and leave the same manager. -/
  oneByOne : ((Assembly.insertFeatures entries).run m).outcome = .ok () ∧
    ((Assembly.insertFeatures entries).run m).after = after
  /-- A listed name has the config that is listed last for it, under a revision of its own. -/
  listed : ∀ before name config rest, entries = before ++ (name, config) :: rest →
    (∀ e ∈ rest, e.1 ≠ name) →
    after.store.configs.get? name = some ⟨config, m.store.lastRevision + before.length + 1⟩
  uncompiled : ∀ e ∈ entries, after.store.compiled.get? e.1 = none
  unlisted : ∀ name, (∀ e ∈ entries, e.1 ≠ name) →
    after.store.configs.get? name = m.store.configs.get? name ∧
      after.store.compiled.get? name = m.store.compiled.get? name
  revisions : after.store.lastRevision = m.store.lastRevision + entries.length

theorem stored_of_passed {entries : List (String × Json)} {m : RuleManager}
    (passed : ∀ e ∈ entries, refusal? m.settings.validateOnAdd e.1 e.2 = none) :
    Stored m entries { m with store := m.store.insertMany entries } where
  exact := rfl
  oneByOne := run_insertFeatures_of_passed passed
  listed := by
    intro before name config rest parts last
    rw [parts]
    exact (Store.insertMany_listed last m.store before config).1
  uncompiled := by
    intro e member
    exact Store.insertMany_uncompiled ⟨e, member, rfl⟩ m.store
  unlisted := by
    intro name unlisted
    exact Store.insertMany_unlisted unlisted m.store
  revisions := m.store.lastRevision_insertMany entries

/-- The two ways a batch ends: all of it is stored, or its first refused entry is reported and the
manager is the one from before. -/
inductive Batch (m : RuleManager) (entries : List (String × Json)) :
    Except ManagerError Unit → RuleManager → Prop
  | stored (after : RuleManager)
      (passed : ∀ e ∈ entries, ∀ error, ¬ Refused m.settings.validateOnAdd e.1 e.2 error)
      (effect : Stored m entries after) : Batch m entries (.ok ()) after
  | refused (before : List (String × Json)) (name : String) (config : Json)
      (rest : List (String × Json)) (error : ManagerError)
      (parts : entries = before ++ (name, config) :: rest)
      (passed : ∀ e ∈ before, ∀ error, ¬ Refused m.settings.validateOnAdd e.1 e.2 error)
      (first : Refused m.settings.validateOnAdd name config error) :
      Batch m entries (.error error) m

theorem batch_accept (m : RuleManager) (entries : List (String × Json)) :
    Batch m entries ((accept m.settings.validateOnAdd entries).map fun _ => ())
      (m.written (accept m.settings.validateOnAdd entries)) := by
  rcases accept_cases m.settings.validateOnAdd entries with
    ⟨accepted, passed⟩ | ⟨before, name, config, rest, error, parts, passed, refused, failed⟩
  · rw [accepted]
    have none := fun e member => refusal?_eq_none_iff.mp (passed e member)
    exact .stored _ none (stored_of_passed passed)
  · rw [failed]
    have none := fun e member => refusal?_eq_none_iff.mp (passed e member)
    exact .refused before name config rest error parts none (refusal?_eq_some_iff.mp refused)

theorem batch_extend (m : RuleManager) (entries : List (String × Json)) :
    Batch m entries ((extend entries).run m).outcome ((extend entries).run m).after := by
  obtain ⟨outcome, after⟩ := run_extend entries m
  rw [outcome, after]
  exact batch_accept m entries

theorem batch_insert (m : RuleManager) (name : String) (config : Json) :
    Batch m [(name, config)] ((insert name config).run m).outcome
      ((insert name config).run m).after := by
  obtain ⟨outcome, after⟩ := run_insert name config m
  rw [outcome, after]
  exact batch_accept m [(name, config)]

/-! ## Documents and files -/

/-- The two ways loading a document ends: it is at fault as a document, and the manager is the one
from before, or its entries are a batch, in key order, and are counted. -/
inductive Loaded (m : RuleManager) (content : String) (format : DocumentFormat) :
    Except ManagerError Nat → RuleManager → Prop
  | faulty (e : DocumentError) (read : (Document.features content format).outcome = .error e)
      (fault : Document.Faulty content format (·.isObject = true) .featureNotMapping e) :
      Loaded m content format (.error (.document e)) m
  | batch (entries : List (String × Json)) (outcome : Except ManagerError Unit)
      (after : RuleManager) (read : (Document.features content format).outcome = .ok entries)
      (listed : Document.Lists content format entries) (ordered : KeysIncrease entries)
      (mappings : ∀ e ∈ entries, e.2.isObject = true)
      (stored : Batch m entries outcome after) :
      Loaded m content format (outcome.map fun _ => entries.length) after

/-- A file that cannot be read changes nothing; one that can is a document. -/
inductive FileLoaded (m : RuleManager) (files : Files) (path : String) :
    Except ManagerError Nat → RuleManager → Prop
  | unreadable (missing : fileText? files path = none) :
      FileLoaded m files path (.error .unreadableFile) m
  | document (content : String) (outcome : Except ManagerError Nat) (after : RuleManager)
      (read : fileText? files path = some content)
      (loaded : Loaded m content (.ofPath path) outcome after) :
      FileLoaded m files path outcome after

theorem loaded_loadDocument (m : RuleManager) (content : String) (format : DocumentFormat) :
    Loaded m content format ((loadDocument content format).run m).outcome
      ((loadDocument content format).run m).after := by
  obtain ⟨outcome, after⟩ := run_loadDocument content format m
  rw [outcome, after, acceptDocument]
  cases read : (Document.features content format).outcome with
  | error e => exact .faulty e read (Document.features_eq_error_iff.mp read)
  | ok entries =>
    obtain ⟨listed, mappings⟩ := Document.features_eq_ok_iff.mp read
    have stored := batch_accept m entries
    have loaded := Loaded.batch entries _ _ read listed listed.keysIncrease mappings stored
    change Loaded m content format ((accept m.settings.validateOnAdd entries).map List.length)
      (m.written (accept m.settings.validateOnAdd entries))
    rcases accept_cases m.settings.validateOnAdd entries with
      ⟨accepted, -⟩ | ⟨-, -, -, -, error, -, -, -, failed⟩
    · rw [accepted] at loaded ⊢
      exact loaded
    · rw [failed] at loaded ⊢
      exact loaded

theorem fileLoaded_loadFile (m : RuleManager) (files : Files) (path : String) :
    FileLoaded m files path ((loadFile files path).run m).outcome
      ((loadFile files path).run m).after := by
  obtain ⟨outcome, after⟩ := run_loadFile files path m
  rw [outcome, after, acceptFile]
  cases read : fileText? files path with
  | none => exact .unreadable read
  | some content =>
    obtain ⟨outcome, after⟩ := run_loadDocument content (.ofPath path) m
    have loaded := loaded_loadDocument m content (.ofPath path)
    rw [outcome, after] at loaded
    exact .document content _ _ read loaded

end RuleManager

/-! ## Flags -/

namespace FlagManager

/-- The two ways loading flags ends: the document is at fault and no flag changes, or exactly the
listed flags are set and counted. -/
inductive FlagsLoaded (m : FlagManager) (content : String) (format : DocumentFormat) :
    Except ManagerError Nat → FlagManager → Prop
  | faulty (e : DocumentError) (read : Document.booleans content format = .error e)
      (fault : Document.Faulty content format (fun v => ∃ b, v = .bool b) .flagNotBoolean e) :
      FlagsLoaded m content format (.error (.document e)) m
  | set (listed : List (String × Bool)) (after : FlagManager)
      (read : Document.booleans content format = .ok listed)
      (entries : Document.Lists content format (listed.map fun f => (f.1, .bool f.2)))
      (ordered : KeysIncrease listed)
      (flags : ∀ name, after.flags.get? name = (findEntry name listed).or (m.flags.get? name)) :
      FlagsLoaded m content format (.ok listed.length) after

theorem run_loadDocument (content : String) (format : DocumentFormat) (m : FlagManager) :
    ((loadDocument content format).run m).outcome =
        ((Document.booleans content format).mapError .document).map List.length ∧
      ((loadDocument content format).run m).after =
        match Document.booleans content format with
        | .error _ => m
        | .ok listed => ⟨m.flags.insertMany listed⟩ := by
  simp only [loadDocument, Call.outcome_bind, Call.after_bind]
  cases Document.booleans content format <;> exact ⟨rfl, rfl⟩

theorem flagsLoaded_loadDocument (m : FlagManager) (content : String) (format : DocumentFormat) :
    FlagsLoaded m content format ((loadDocument content format).run m).outcome
      ((loadDocument content format).run m).after := by
  obtain ⟨outcome, after⟩ := run_loadDocument content format m
  rw [outcome, after]
  cases read : Document.booleans content format with
  | error e => exact .faulty e read (Document.booleans_eq_error_iff.mp read)
  | ok listed =>
    have ordered := Document.keysIncrease_booleans read
    refine .set listed _ read (Document.booleans_eq_ok_iff.mp read) ordered ?_
    intro name
    have distinct : (listed.map Prod.fst).Nodup := KeyMap.nodup_keys ⟨listed, ordered⟩
    rw [KeyMap.get?_insertMany, KeyMap.findEntry_reverse distinct]

end FlagManager

/-- Every write of either manager is all or nothing: batches, single configs, documents, files and
documents of flags, on every manager and under either setting. -/
theorem writes_allOrNothing :
    (∀ (m : RuleManager) entries, m.Batch entries ((RuleManager.extend entries).run m).outcome
      ((RuleManager.extend entries).run m).after) ∧
    (∀ (m : RuleManager) name config, m.Batch [(name, config)]
      ((RuleManager.insert name config).run m).outcome
      ((RuleManager.insert name config).run m).after) ∧
    (∀ (m : RuleManager) content format, m.Loaded content format
      ((RuleManager.loadDocument content format).run m).outcome
      ((RuleManager.loadDocument content format).run m).after) ∧
    (∀ (m : RuleManager) files path, m.FileLoaded files path
      ((RuleManager.loadFile files path).run m).outcome
      ((RuleManager.loadFile files path).run m).after) ∧
    ∀ (m : FlagManager) content format, m.FlagsLoaded content format
      ((FlagManager.loadDocument content format).run m).outcome
      ((FlagManager.loadDocument content format).run m).after :=
  ⟨RuleManager.batch_extend, RuleManager.batch_insert, RuleManager.loaded_loadDocument,
    RuleManager.fileLoaded_loadFile, FlagManager.flagsLoaded_loadDocument⟩

end FeatureGate
