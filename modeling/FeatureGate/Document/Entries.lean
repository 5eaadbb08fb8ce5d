import FeatureGate.Document.Format
import FeatureGate.Json.Tree
import FeatureGate.Report
import FeatureGate.Text.Blank
import FeatureGate.Yaml.Value

/-!
# Flag documents

A flag document is a mapping from names to feature configs, or from names to booleans, written in
YAML or JSON. Its entries come in key order. What a document lists, and why it is refused, is stated
beside the two readers, and each of them is characterized by it.
-/

namespace FeatureGate

inductive DocumentError where
  | malformed (format : DocumentFormat)
  | notMapping (typeName : String)
  | featureNotMapping (name typeName : String)
  | flagNotBoolean (name typeName : String)
deriving DecidableEq

def DocumentError.message : DocumentError → String
  | .malformed .yaml => "YAML parsing error"
  | .malformed .json => "JSON parsing error"
  | .notMapping t => s!"Invalid flag document: expected a mapping of flag names, got {t}"
  | .featureNotMapping name t =>
    invalidValueMessage name s!"feature config must be a mapping, got {t}"
  | .flagNotBoolean name t => invalidValueMessage name s!"flag values must be true/false, got {t}"

namespace Document

/-- The value of a document. A YAML document of blanks only is null. -/
def value (content : String) : DocumentFormat → Except DocumentError Json
  | .json => (Json.parse? content).elim (.error (.malformed .json)) .ok
  | .yaml =>
    if isBlankText content then .ok .null
    else (Yaml.parse? content).elim (.error (.malformed .yaml)) .ok

/-- The entries of a document; null has none. -/
def entries : Json → Except DocumentError (List (String × Json))
  | .object members => .ok members
  | .null => .ok []
  | v => .error (.notMapping v.typeName)

/-- The first entry whose config is no mapping. -/
def firstNonMapping? : List (String × Json) → Option (String × Json)
  | [] => none
  | (name, config) :: rest => if config.isObject then firstNonMapping? rest else some (name, config)

/-- Feature configs by name. The configs are only checked to be mappings. -/
def features (content : String) (format : DocumentFormat) :
    Report DocumentError (List (String × Json)) := do
  let members ← .ofExcept (value content format)
  let entries ← .ofExcept (entries members)
  match firstNonMapping? entries with
  | some (name, config) => .fail (.featureNotMapping name config.typeName)
  | none =>
    .emit (.documentRead entries.length)
    return entries

def booleansOfEntries : List (String × Json) → Except DocumentError (List (String × Bool))
  | [] => .ok []
  | (name, .bool b) :: rest => (booleansOfEntries rest).map ((name, b) :: ·)
  | (name, v) :: _ => .error (.flagNotBoolean name v.typeName)

/-- Booleans by name. -/
def booleans (content : String) (format : DocumentFormat) :
    Except DocumentError (List (String × Bool)) := do
  let members ← value content format
  let entries ← entries members
  booleansOfEntries entries

/-! ## What a document lists -/

/-- Whether an error tells of the first entry whose value does not fit, by its name and the type of
the value. -/
inductive FirstMisfit (Fits : Json → Prop) (misfit : String → String → DocumentError) :
    List (String × Json) → DocumentError → Prop
  | here {name : String} {v : Json} {rest : List (String × Json)} (unfit : ¬ Fits v) :
      FirstMisfit Fits misfit ((name, v) :: rest) (misfit name v.typeName)
  | later {name : String} {v : Json} {rest : List (String × Json)} {e : DocumentError}
      (fit : Fits v) (h : FirstMisfit Fits misfit rest e) :
      FirstMisfit Fits misfit ((name, v) :: rest) e

namespace FirstMisfit

variable {Fits : Json → Prop} {misfit : String → String → DocumentError} {name : String} {v : Json}
  {rest : List (String × Json)} {e : DocumentError}

theorem cons_iff_of_fit (fit : Fits v) :
    FirstMisfit Fits misfit ((name, v) :: rest) e ↔ FirstMisfit Fits misfit rest e := by
  constructor
  · rintro (unfit | ⟨-, later⟩)
    · exact absurd fit unfit
    · exact later
  · exact .later fit

theorem cons_iff_of_unfit (unfit : ¬ Fits v) :
    FirstMisfit Fits misfit ((name, v) :: rest) e ↔ misfit name v.typeName = e := by
  constructor
  · rintro (_ | ⟨fit, -⟩)
    · rfl
    · exact absurd fit unfit
  · rintro rfl
    exact .here unfit

end FirstMisfit

section

variable (content : String) (format : DocumentFormat)

/-- The entries that a document lists: the members of the object that is its value, or none if its
value is null. -/
inductive Lists : List (String × Json) → Prop
  | members {members : List (String × Json)}
      (h : value content format = .ok (.object members)) : Lists members
  | nothing (h : value content format = .ok .null) : Lists []

/-- Why a document lists nothing: it has no value, or its value is of another type. -/
inductive Unlisted : DocumentError → Prop
  | malformed (h : value content format = .error (.malformed format)) :
      Unlisted (.malformed format)
  | notMapping {v : Json} (h : value content format = .ok v) (notNull : v ≠ .null)
      (shape : v.isObject = false) : Unlisted (.notMapping v.typeName)

/-- Why a document is refused whose values must fit. -/
inductive Faulty (Fits : Json → Prop) (misfit : String → String → DocumentError) :
    DocumentError → Prop
  | unlisted {e : DocumentError} (h : Unlisted content format e) : Faulty Fits misfit e
  | misfit {listed : List (String × Json)} {e : DocumentError} (h : Lists content format listed)
      (first : FirstMisfit Fits misfit listed e) : Faulty Fits misfit e

end

section

variable {content : String} {format : DocumentFormat} {listed : List (String × Json)}
  {e : DocumentError}

theorem value_eq_error (h : value content format = .error e) : e = .malformed format := by
  cases format with
  | json =>
    rw [value] at h
    cases parsed : Json.parse? content <;> simp_all
  | yaml =>
    rw [value] at h
    split at h
    · cases h
    · cases parsed : Yaml.parse? content <;> simp_all

theorem bind_entries_eq_ok_iff :
    (value content format).bind entries = .ok listed ↔ Lists content format listed := by
  constructor
  · intro h
    cases found : value content format with
    | error e =>
      rw [found] at h
      cases h
    | ok v =>
      rw [found] at h
      cases v with
      | null =>
        obtain rfl := Except.ok.inj h
        exact .nothing found
      | object members =>
        obtain rfl := Except.ok.inj h
        exact .members found
      | bool | number | string | array => cases h
  · rintro (found | found) <;> rw [found] <;> rfl

theorem bind_entries_eq_error_iff :
    (value content format).bind entries = .error e ↔ Unlisted content format e := by
  constructor
  · intro h
    cases found : value content format with
    | error e' =>
      obtain rfl := value_eq_error found
      rw [found] at h
      obtain rfl := Except.error.inj h
      exact .malformed found
    | ok v =>
      rw [found] at h
      cases v with
      | null | object => cases h
      | bool | number | string | array =>
        obtain rfl := Except.error.inj h
        exact .notMapping found Json.noConfusion rfl
  · rintro (found | @⟨v, found, notNull, shape⟩)
    · rw [found]
      rfl
    · rw [found]
      cases v with
      | null => exact absurd rfl notNull
      | object => cases shape
      | bool | number | string | array => rfl

/-- A document is read as its entries are, and refused for its own faults or for theirs. -/
theorem bind_read_eq_error_iff {α : Type} {Fits : Json → Prop}
    {misfit : String → String → DocumentError} {read : List (String × Json) → Except DocumentError α}
    (first : ∀ listed e, read listed = .error e ↔ FirstMisfit Fits misfit listed e) :
    ((value content format).bind entries).bind read = .error e ↔
      Faulty content format Fits misfit e := by
  constructor
  · intro h
    cases found : (value content format).bind entries with
    | error e' =>
      rw [found] at h
      obtain rfl := Except.error.inj h
      exact .unlisted (bind_entries_eq_error_iff.mp found)
    | ok listed =>
      rw [found] at h
      exact .misfit (bind_entries_eq_ok_iff.mp found) ((first listed e).mp h)
  · rintro (found | ⟨found, misfit⟩)
    · rw [bind_entries_eq_error_iff.mpr found]
      rfl
    · rw [bind_entries_eq_ok_iff.mpr found]
      exact (first _ e).mpr misfit

theorem bind_read_eq_ok_iff {α : Type} {a : α} {read : List (String × Json) → Except DocumentError α} :
    ((value content format).bind entries).bind read = .ok a ↔
      ∃ listed, Lists content format listed ∧ read listed = .ok a := by
  simp only [← bind_entries_eq_ok_iff]
  cases (value content format).bind entries <;> simp [Except.bind]

theorem outcome_features :
    (features content format).outcome = ((value content format).bind entries).bind fun listed =>
      (firstNonMapping? listed).elim (.ok listed) fun m =>
        .error (.featureNotMapping m.1 m.2.typeName) := by
  rw [features, Report.outcome_bind, Report.outcome_ofExcept]
  cases value content format with
  | error e => rfl
  | ok v =>
    simp only [Except.bind, Report.outcome_bind, Report.outcome_ofExcept]
    cases entries v with
    | error e => rfl
    | ok listed =>
      dsimp only
      cases firstNonMapping? listed <;> rfl

theorem firstNonMapping?_eq_none_iff :
    firstNonMapping? listed = none ↔ ∀ m ∈ listed, m.2.isObject = true := by
  induction listed with
  | nil => simp [firstNonMapping?]
  | cons m rest ih =>
    rw [firstNonMapping?, List.forall_mem_cons, ← ih]
    split <;> simp_all

theorem exists_firstNonMapping_iff :
    (∃ m, firstNonMapping? listed = some m ∧ .featureNotMapping m.1 m.2.typeName = e) ↔
      FirstMisfit (·.isObject = true) .featureNotMapping listed e := by
  induction listed with
  | nil => exact ⟨nofun, nofun⟩
  | cons m rest ih =>
    obtain ⟨name, v⟩ := m
    rw [firstNonMapping?]
    by_cases mapping : v.isObject = true
    · rw [if_pos mapping, ih, FirstMisfit.cons_iff_of_fit mapping]
    · rw [if_neg mapping, FirstMisfit.cons_iff_of_unfit mapping]
      simp

/-- Feature configs are the entries of the document, if all are mappings. -/
theorem features_eq_ok_iff :
    (features content format).outcome = .ok listed ↔
      Lists content format listed ∧ ∀ m ∈ listed, m.2.isObject = true := by
  rw [outcome_features, bind_read_eq_ok_iff]
  constructor
  · rintro ⟨listed', lists, read⟩
    cases first : firstNonMapping? listed' with
    | some m => simp [first] at read
    | none =>
      rw [first] at read
      obtain rfl := Except.ok.inj read
      exact ⟨lists, firstNonMapping?_eq_none_iff.mp first⟩
  · rintro ⟨lists, mappings⟩
    refine ⟨listed, lists, ?_⟩
    rw [firstNonMapping?_eq_none_iff.mpr mappings]
    rfl

theorem features_eq_error_iff :
    (features content format).outcome = .error e ↔
      Faulty content format (·.isObject = true) .featureNotMapping e := by
  rw [outcome_features]
  apply bind_read_eq_error_iff
  intro listed e
  rw [← exists_firstNonMapping_iff]
  cases firstNonMapping? listed <;> simp

theorem booleansOfEntries_eq_ok_iff {flags : List (String × Bool)} :
    booleansOfEntries listed = .ok flags ↔ listed = flags.map fun f => (f.1, .bool f.2) := by
  constructor
  · intro h
    induction listed generalizing flags with
    | nil =>
      obtain rfl := Except.ok.inj h
      rfl
    | cons m rest ih =>
      obtain ⟨name, v⟩ := m
      cases v with
      | bool b =>
        rw [booleansOfEntries] at h
        cases others : booleansOfEntries rest with
        | error e => simp [others, Except.map] at h
        | ok flags' =>
          rw [others] at h
          obtain rfl := Except.ok.inj h
          rw [ih others, List.map_cons]
      | null | number | string | array | object => cases h
  · rintro rfl
    induction flags with
    | nil => rfl
    | cons f rest ih =>
      rw [List.map_cons, booleansOfEntries, ih]
      rfl

theorem booleansOfEntries_eq_error_iff :
    booleansOfEntries listed = .error e ↔
      FirstMisfit (fun v => ∃ b, v = .bool b) .flagNotBoolean listed e := by
  induction listed with
  | nil => exact ⟨nofun, nofun⟩
  | cons m rest ih =>
    obtain ⟨name, v⟩ := m
    cases v with
    | bool b =>
      have same : booleansOfEntries ((name, .bool b) :: rest) = .error e ↔
          booleansOfEntries rest = .error e := by
        rw [booleansOfEntries]
        cases booleansOfEntries rest <;> simp [Except.map]
      rw [same, ih, FirstMisfit.cons_iff_of_fit ⟨b, rfl⟩]
    | null | number | string | array | object =>
      rw [FirstMisfit.cons_iff_of_unfit nofun]
      exact ⟨Except.error.inj, congrArg Except.error⟩

theorem booleans_eq (content : String) (format : DocumentFormat) :
    booleans content format = ((value content format).bind entries).bind booleansOfEntries := by
  rw [booleans]
  cases value content format <;> rfl

/-- Flags are the entries of the document, if all are booleans. -/
theorem booleans_eq_ok_iff {flags : List (String × Bool)} :
    booleans content format = .ok flags ↔
      Lists content format (flags.map fun f => (f.1, .bool f.2)) := by
  simp only [booleans_eq, bind_read_eq_ok_iff, booleansOfEntries_eq_ok_iff]
  simp

theorem booleans_eq_error_iff :
    booleans content format = .error e ↔
      Faulty content format (fun v => ∃ b, v = .bool b) .flagNotBoolean e := by
  rw [booleans_eq]
  exact bind_read_eq_error_iff fun _ _ => booleansOfEntries_eq_error_iff

end

end Document

end FeatureGate
