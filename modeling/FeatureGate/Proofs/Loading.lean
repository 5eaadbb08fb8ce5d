import FeatureGate.Proofs.Interleaving
import FeatureGate.Proofs.Writes

/-!
# Loading one source after the other

Every source of an assembly is a write. Loading makes the writes in turn up to the first that fails,
and whether a write fails does not depend on what was stored before it. So the manager that is built
holds the entries of all sources, inserted in turn, or there is none and the first source that fails
says why.
-/

namespace FeatureGate

/-! ## Failing writes -/

/-- Whether the first element of a list that is bad for any reason is bad for this one. -/
def FirstBad {α ε : Type} (bad : α → ε → Prop) (xs : List α) (e : ε) : Prop :=
  ∃ before x after, xs = before ++ x :: after ∧ (∀ y ∈ before, ∀ other, ¬ bad y other) ∧ bad x e

theorem none_or_firstBad {α ε : Type} (bad : α → ε → Prop) (xs : List α) :
    (∀ x ∈ xs, ∀ e, ¬ bad x e) ∨ ∃ e, FirstBad bad xs e := by
  induction xs with
  | nil => exact .inl nofun
  | cons x xs ih =>
    by_cases first : ∃ e, bad x e
    · obtain ⟨e, first⟩ := first
      exact .inr ⟨e, [], x, xs, rfl, nofun, first⟩
    · rw [not_exists] at first
      rcases ih with none | ⟨e, before, y, after, rfl, none, later⟩
      · exact .inl (List.forall_mem_cons.mpr ⟨first, none⟩)
      · exact .inr ⟨e, x :: before, y, after, rfl, List.forall_mem_cons.mpr ⟨first, none⟩, later⟩

theorem FirstBad.not_forall {α ε : Type} {bad : α → ε → Prop} {xs : List α} {e : ε}
    (h : FirstBad bad xs e) : ¬ ∀ x ∈ xs, ∀ e, ¬ bad x e := by
  obtain ⟨before, x, after, rfl, -, fails⟩ := h
  intro passed
  exact passed x (List.mem_append_right before List.mem_cons_self) e fails

/-- Why a batch is not stored: its first entry that is refused. -/
abbrev FirstRefused (validate : Bool) (entries : List (String × Json)) (e : ManagerError) : Prop :=
  FirstBad (fun x => Refused validate x.1 x.2) entries e

theorem accept_eq_error_iff {validate : Bool} {entries : List (String × Json)} {e : ManagerError} :
    accept validate entries = .error e ↔ FirstRefused validate entries e := by
  constructor
  · intro failed
    rcases accept_cases validate entries with
      ⟨accepted, -⟩ | ⟨before, name, config, rest, error, parts, passed, refused, failed'⟩
    · rw [accepted] at failed
      cases failed
    · obtain rfl := Except.error.inj (failed.symm.trans failed')
      have none := fun x member => refusal?_eq_none_iff.mp (passed x member)
      exact ⟨before, (name, config), rest, parts, none, refusal?_eq_some_iff.mp refused⟩
  · rintro ⟨before, x, rest, rfl, passed, refused⟩
    have none : before.findSome? (fun x => refusal? validate x.1 x.2) = none :=
      List.findSome?_eq_none_iff.mpr fun x member => refusal?_eq_none_iff.mpr (passed x member)
    simp [accept, List.findSome?_append, none, refusal?_eq_some_iff.mpr refused]

theorem eq_of_accept {validate : Bool} {entries listed : List (String × Json)}
    (h : accept validate entries = .ok listed) : listed = entries := by
  rcases accept_cases validate entries with ⟨accepted, -⟩ | ⟨-, -, -, -, error, -, -, -, failed⟩
  · exact Except.ok.inj (h.symm.trans accepted)
  · rw [failed] at h
    cases h

namespace Interleaving

namespace Write

/-- The entries that a document lists; one that is no mapping lists none. -/
def documentEntries (content : String) (format : DocumentFormat) : List (String × Json) :=
  match Document.value content format with
  | .ok (.object members) => members
  | _ => []

theorem documentEntries_eq {content : String} {format : DocumentFormat}
    {listed : List (String × Json)} (h : Document.Lists content format listed) :
    documentEntries content format = listed := by
  cases h with
  | members found => rw [documentEntries, found]
  | nothing found => rw [documentEntries, found]

/-- The entries that a write lists. -/
def entries : Write → List (String × Json)
  | insert name config => [(name, config)]
  | extend entries => entries
  | loadDocument content format => documentEntries content format
  | loadFile files path =>
    match RuleManager.fileText? files path with
    | some content => documentEntries content (.ofPath path)
    | none => []

/-- Why a write fails, whatever is stored already. -/
inductive Fails (validate : Bool) : Write → ManagerError → Prop
  | insert {name : String} {config : Json} {e : ManagerError}
      (refused : Refused validate name config e) : Fails validate (.insert name config) e
  | extend {entries : List (String × Json)} {e : ManagerError}
      (first : FirstRefused validate entries e) : Fails validate (.extend entries) e
  | faulty {content : String} {format : DocumentFormat} {e : DocumentError}
      (fault : Document.Faulty content format (·.isObject = true) .featureNotMapping e) :
      Fails validate (.loadDocument content format) (.document e)
  | listed {content : String} {format : DocumentFormat} {entries : List (String × Json)}
      {e : ManagerError} (listed : Document.Lists content format entries)
      (mappings : ∀ m ∈ entries, m.2.isObject = true) (first : FirstRefused validate entries e) :
      Fails validate (.loadDocument content format) e
  | unreadable {files : Files} {path : String} (missing : RuleManager.fileText? files path = none) :
      Fails validate (.loadFile files path) .unreadableFile
  | file {files : Files} {path content : String} {e : ManagerError}
      (read : RuleManager.fileText? files path = some content)
      (h : Fails validate (.loadDocument content (.ofPath path)) e) :
      Fails validate (.loadFile files path) e

variable {validate : Bool}

theorem acceptDocument_eq_error_iff {content : String} {format : DocumentFormat}
    {e : ManagerError} :
    RuleManager.acceptDocument validate content format = .error e ↔
      Fails validate (.loadDocument content format) e := by
  rw [RuleManager.acceptDocument]
  constructor
  · intro failed
    cases read : (Document.features content format).outcome with
    | error source =>
      rw [read] at failed
      obtain rfl := Except.error.inj failed
      exact .faulty (Document.features_eq_error_iff.mp read)
    | ok entries =>
      rw [read] at failed
      obtain ⟨listed, mappings⟩ := Document.features_eq_ok_iff.mp read
      exact .listed listed mappings (accept_eq_error_iff.mp failed)
  · intro fails
    cases fails with
    | faulty fault =>
      rw [Document.features_eq_error_iff.mpr fault]
      rfl
    | listed listed mappings first =>
      rw [Document.features_eq_ok_iff.mpr ⟨listed, mappings⟩]
      exact accept_eq_error_iff.mpr first

theorem accepted_eq_error_iff {w : Write} {e : ManagerError} :
    w.accepted validate = .error e ↔ w.Fails validate e := by
  cases w with
  | insert name config =>
    rw [accepted, accept_eq_error_iff]
    constructor
    · rintro ⟨before, x, rest, parts, -, refused⟩
      cases before with
      | nil =>
        obtain ⟨rfl, -⟩ := List.cons.inj parts
        exact .insert refused
      | cons x before => simp at parts
    · rintro ⟨refused⟩
      refine ⟨[], (name, config), [], rfl, ?_, refused⟩
      intro x member
      cases member
  | extend entries =>
    rw [accepted, accept_eq_error_iff]
    constructor
    · exact .extend
    · intro fails
      cases fails with
      | extend first => exact first
  | loadDocument content format => exact acceptDocument_eq_error_iff
  | loadFile files path =>
    rw [accepted, RuleManager.acceptFile]
    cases read : RuleManager.fileText? files path with
    | none =>
      constructor
      · intro failed
        obtain rfl := Except.error.inj failed
        exact .unreadable read
      · intro fails
        cases fails with
        | unreadable => rfl
        | file read' =>
          rw [read] at read'
          cases read'
    | some content =>
      rw [acceptDocument_eq_error_iff]
      constructor
      · exact .file read
      · intro fails
        cases fails with
        | unreadable missing =>
          rw [read] at missing
          cases missing
        | file read' h =>
          obtain rfl := Option.some.inj (read.symm.trans read')
          exact h

/-- Without validation a document of mappings is loaded. -/
theorem passes_of_lists {content : String} {format : DocumentFormat}
    {listed : List (String × Json)} (h : Document.Lists content format listed)
    (mappings : ∀ m ∈ listed, m.2.isObject = true) (e : ManagerError) :
    ¬ (Write.loadDocument content format).Fails false e := by
  intro fails
  cases fails with
  | faulty fault =>
    have failed := Document.features_eq_error_iff.mpr fault
    rw [Document.features_eq_ok_iff.mpr ⟨h, mappings⟩] at failed
    cases failed
  | listed _ mappings first =>
    obtain ⟨before, x, after, rfl, -, refused⟩ := first
    have mapping := mappings x (List.mem_append_right before List.mem_cons_self)
    cases refused with
    | notMapping shape =>
      rw [shape] at mapping
      cases mapping
    | compile _ eager => cases eager

theorem eq_of_acceptDocument {content : String} {format : DocumentFormat}
    {listed : List (String × Json)}
    (h : RuleManager.acceptDocument validate content format = .ok listed) :
    listed = documentEntries content format := by
  rw [RuleManager.acceptDocument] at h
  cases read : (Document.features content format).outcome with
  | error e =>
    rw [read] at h
    cases h
  | ok entries =>
    rw [read] at h
    rw [documentEntries_eq (Document.features_eq_ok_iff.mp read).1]
    exact eq_of_accept h

/-- A write stores what it lists or nothing. -/
theorem eq_of_accepted {w : Write} {listed : List (String × Json)}
    (h : w.accepted validate = .ok listed) : listed = w.entries := by
  cases w with
  | insert | extend => exact eq_of_accept h
  | loadDocument content format => exact eq_of_acceptDocument h
  | loadFile files path =>
    rw [accepted, RuleManager.acceptFile] at h
    rw [entries]
    cases read : RuleManager.fileText? files path with
    | none =>
      rw [read] at h
      cases h
    | some content =>
      rw [read] at h
      exact eq_of_acceptDocument h

theorem accepted_of_passed {w : Write} (passed : ∀ e, ¬ w.Fails validate e) :
    w.accepted validate = .ok w.entries := by
  cases accepted : w.accepted validate with
  | error e => exact absurd (accepted_eq_error_iff.mp accepted) (passed e)
  | ok listed => rw [eq_of_accepted accepted]

end Write

/-! ## Writes in turn -/

/-- The entries of all writes, or the error of the first write that fails. -/
def gather (validate : Bool) : List Write → Except ManagerError (List (String × Json))
  | [] => .ok []
  | w :: ws => (w.accepted validate).bind fun first => (gather validate ws).map (first ++ ·)

/-- Why writes in turn are not all made: the first of them that fails. -/
abbrev FirstFails (validate : Bool) (ws : List Write) (e : ManagerError) : Prop :=
  FirstBad (Write.Fails validate) ws e

variable {validate : Bool} {ws : List Write}

theorem gather_append (validate : Bool) (xs ys : List Write) :
    gather validate (xs ++ ys) =
      (gather validate xs).bind fun first => (gather validate ys).map (first ++ ·) := by
  induction xs with
  | nil =>
    rw [List.nil_append, gather, Except.bind]
    cases gather validate ys <;> rfl
  | cons w xs ih =>
    rw [List.cons_append, gather, gather, ih]
    cases w.accepted validate with
    | error e => rfl
    | ok first =>
      cases gather validate xs with
      | error e => rfl
      | ok second =>
        cases gather validate ys with
        | error e => rfl
        | ok third => simp only [Except.bind, Except.map, List.append_assoc]

theorem gather_of_passed (passed : ∀ w ∈ ws, ∀ e, ¬ w.Fails validate e) :
    gather validate ws = .ok (ws.flatMap Write.entries) := by
  induction ws with
  | nil => rfl
  | cons w ws ih =>
    obtain ⟨first, others⟩ := List.forall_mem_cons.mp passed
    rw [gather, Write.accepted_of_passed first, ih others]
    rfl

theorem gather_of_firstFails {e : ManagerError} (h : FirstFails validate ws e) :
    gather validate ws = .error e := by
  obtain ⟨before, w, after, rfl, passed, fails⟩ := h
  rw [gather_append, gather_of_passed passed, gather, Write.accepted_eq_error_iff.mpr fails]
  rfl

theorem gather_eq_error_iff {e : ManagerError} :
    gather validate ws = .error e ↔ FirstFails validate ws e := by
  refine ⟨?_, gather_of_firstFails⟩
  intro failed
  rcases none_or_firstBad (Write.Fails validate) ws with passed | ⟨e', first⟩
  · rw [gather_of_passed passed] at failed
    cases failed
  · obtain rfl := Except.error.inj (failed.symm.trans (gather_of_firstFails first))
    exact first

theorem gather_eq_ok {entries : List (String × Json)} (h : gather validate ws = .ok entries) :
    (∀ w ∈ ws, ∀ e, ¬ w.Fails validate e) ∧ entries = ws.flatMap Write.entries := by
  rcases none_or_firstBad (Write.Fails validate) ws with passed | ⟨e, first⟩
  · exact ⟨passed, Except.ok.inj (h.symm.trans (gather_of_passed passed))⟩
  · rw [gather_of_firstFails first] at h
    cases h

/-- Whether a call makes writes in turn: it stores all their entries or fails as the first of them
that fails. -/
structure Loads {α : Type} (c : RuleManager.RuleCall α) (ws : List Write) : Prop where
  stored : ∀ m entries, gather m.settings.validateOnAdd ws = .ok entries →
    (∃ a, (c.run m).outcome = .ok a) ∧
      (c.run m).after = { m with store := m.store.insertMany entries }
  failed : ∀ m e, gather m.settings.validateOnAdd ws = .error e → (c.run m).outcome = .error e

variable {α β : Type}

theorem loads_nil {c : RuleManager.RuleCall α}
    (h : ∀ m, ∃ a, (c.run m).outcome = .ok a ∧ (c.run m).after = m) : Loads c [] where
  stored := by
    intro m entries gathered
    obtain rfl := Except.ok.inj gathered
    obtain ⟨a, outcome, after⟩ := h m
    exact ⟨⟨a, outcome⟩, after⟩
  failed := nofun

theorem loads_write {c : RuleManager.RuleCall α} {w : Write}
    {g : List (String × Json) → α}
    (h : ∀ m, (c.run m).outcome = (w.accepted m.settings.validateOnAdd).map g ∧
      (c.run m).after = m.written (w.accepted m.settings.validateOnAdd)) : Loads c [w] where
  stored := by
    intro m entries gathered
    obtain ⟨outcome, after⟩ := h m
    rw [gather] at gathered
    cases accepted : w.accepted m.settings.validateOnAdd with
    | error e =>
      rw [accepted] at gathered
      cases gathered
    | ok listed =>
      rw [accepted] at gathered outcome after
      obtain rfl : listed ++ [] = entries := Except.ok.inj gathered
      rw [List.append_nil]
      exact ⟨⟨g listed, outcome⟩, after⟩
  failed := by
    intro m e gathered
    rw [gather] at gathered
    rw [(h m).1]
    cases accepted : w.accepted m.settings.validateOnAdd with
    | error e' =>
      rw [accepted] at gathered
      obtain rfl := Except.error.inj gathered
      rfl
    | ok listed =>
      rw [accepted] at gathered
      cases gathered

theorem Loads.bind {c : RuleManager.RuleCall α} {f : α → RuleManager.RuleCall β}
    {ws' : List Write} (first : Loads c ws) (rest : ∀ a, Loads (f a) ws') :
    Loads (c >>= f) (ws ++ ws') where
  stored := by
    intro m entries gathered
    rw [gather_append] at gathered
    cases own : gather m.settings.validateOnAdd ws with
    | error e =>
      rw [own] at gathered
      cases gathered
    | ok listed =>
      obtain ⟨⟨a, outcome⟩, after⟩ := first.stored m listed own
      rw [own] at gathered
      cases others : gather m.settings.validateOnAdd ws' with
      | error e =>
        rw [others] at gathered
        cases gathered
      | ok listed' =>
        rw [others] at gathered
        obtain rfl : listed ++ listed' = entries := Except.ok.inj gathered
        -- the settings are still the ones of the first call
        obtain ⟨⟨b, outcome'⟩, after'⟩ := (rest a).stored (c.run m).after listed' (by
          rw [after]
          exact others)
        simp only [Call.outcome_bind, Call.after_bind, outcome, Except.bind]
        refine ⟨⟨b, outcome'⟩, ?_⟩
        rw [after', after, Store.insertMany_append]
  failed := by
    intro m e gathered
    rw [gather_append] at gathered
    rw [Call.outcome_bind]
    cases own : gather m.settings.validateOnAdd ws with
    | error e' =>
      rw [own] at gathered
      obtain rfl := Except.error.inj gathered
      rw [first.failed m e' own]
      rfl
    | ok listed =>
      obtain ⟨⟨a, outcome⟩, after⟩ := first.stored m listed own
      rw [own] at gathered
      cases others : gather m.settings.validateOnAdd ws' with
      | error e' =>
        rw [others] at gathered
        obtain rfl := Except.error.inj gathered
        rw [outcome]
        exact (rest a).failed (c.run m).after e' (by
          rw [after]
          exact others)
      | ok listed' =>
        rw [others] at gathered
        cases gathered

end Interleaving

open Interleaving

/-! ## Assemblies -/

namespace Assembly

/-- The sources of an assembly, in the order in which they are loaded. -/
def sources (a : Assembly) (files : Files) : List Write :=
  a.files.map (.loadFile files) ++
    (a.documents.map (fun d => .loadDocument d.1 d.2) ++
      a.features.map fun e => .insert e.1 e.2)

/-- What a call makes of a list one by one makes the writes of its elements. -/
theorem loads_traversal {α γ : Type} (write : γ → Write) {c : γ → RuleManager.RuleCall α}
    (each : ∀ x, Loads (c x) [write x]) (traverse : List γ → RuleManager.RuleCall Unit)
    (nil : traverse [] = pure ()) (cons : ∀ x xs, traverse (x :: xs) = c x >>= fun _ => traverse xs)
    (xs : List γ) : Loads (traverse xs) (xs.map write) := by
  induction xs with
  | nil =>
    rw [nil]
    exact loads_nil fun m => ⟨(), rfl, rfl⟩
  | cons x xs ih =>
    rw [cons]
    exact (each x).bind fun _ => ih

theorem loads_load (a : Assembly) (files : Files) : Loads (a.load files) (a.sources files) := by
  have fromFiles := loads_traversal (.loadFile files)
    (fun path => loads_write (RuleManager.run_loadFile files path)) (loadFiles files) rfl
    (fun _ _ => rfl) a.files
  have fromDocuments := loads_traversal (fun d => .loadDocument d.1 d.2)
    (fun d => loads_write (RuleManager.run_loadDocument d.1 d.2)) loadDocuments rfl
    (fun _ _ => rfl) a.documents
  have single := loads_traversal (fun e => .insert e.1 e.2)
    (fun e => loads_write (RuleManager.run_insert e.1 e.2)) insertFeatures rfl (fun _ _ => rfl)
    a.features
  have told : Loads (do
      let m ← .state
      .emit (.managerBuilt m.size)) [] :=
    loads_nil fun m => ⟨(), rfl, rfl⟩
  have all := fromFiles.bind fun _ => fromDocuments.bind fun _ => single.bind fun _ => told
  rw [List.append_nil] at all
  exact all

/-- The manager with the entries of all sources inserted in turn, or the error of the first source
that fails. -/
theorem outcome_build (a : Assembly) (files : Files) :
    (a.build files).outcome =
      (gather a.settings.validateOnAdd (a.sources files)).map fun entries =>
        ⟨a.builder.getD .asIs, a.settings, Store.empty.insertMany entries, 0⟩ := by
  have loads := a.loads_load files
  rw [build]
  cases gathered : gather a.settings.validateOnAdd (a.sources files) with
  | error e =>
    have outcome := loads.failed (.new (a.builder.getD .asIs) a.settings) e gathered
    simp only [outcome]
    rfl
  | ok entries =>
    obtain ⟨⟨u, outcome⟩, after⟩ :=
      loads.stored (.new (a.builder.getD .asIs) a.settings) entries gathered
    simp only [outcome, after]
    rfl

end Assembly

end FeatureGate
