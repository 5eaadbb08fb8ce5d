import FeatureGate.Proofs.Decoding
import FeatureGate.Proofs.Loading
import FeatureGate.Proofs.Transparency
import Mathlib.Data.List.Induction

/-!
# Precedence of sources

An assembly is prepared by calls in any order. What is built depends on the order of the calls
within each kind of source, on the last settings and on the last context builder, and on nothing
else. The kinds have an order of their own: files, then documents, then single features. The first
source that fails in it decides the error, and of the sources that mention a name the last one
decides its config.
-/

namespace FeatureGate

open Interleaving

namespace Assembly

/-! ## Calls that prepare an assembly -/

inductive Setup where
  | addFile (path : String)
  | addDocument (content : String) (format : DocumentFormat)
  | addFeature (name : String) (config : Json)
  | setSettings (settings : ManagerSettings)
  | setValidateOnAdd (enable : Bool)
  | setBuilder (builder : ContextBuilder)

def setUp (a : Assembly) : Setup → Assembly
  | .addFile path => a.addFile path
  | .addDocument content format => a.addDocument content format
  | .addFeature name config => a.addFeature name config
  | .setSettings settings => a.setSettings settings
  | .setValidateOnAdd enable => a.setValidateOnAdd enable
  | .setBuilder builder => a.setBuilder builder

/-- The assembly after calls, in their order. -/
def ofSetups (setups : List Setup) : Assembly := setups.foldl setUp .empty

namespace Setup

def file? : Setup → Option String
  | addFile path => some path
  | _ => none

def document? : Setup → Option (String × DocumentFormat)
  | addDocument content format => some (content, format)
  | _ => none

def feature? : Setup → Option (String × Json)
  | addFeature name config => some (name, config)
  | _ => none

/-- The settings that a call chooses; whether configs are validated is all there is to choose. -/
def settings? : Setup → Option ManagerSettings
  | setSettings settings => some settings
  | setValidateOnAdd enable => some ⟨enable⟩
  | _ => none

def builder? : Setup → Option ContextBuilder
  | setBuilder builder => some builder
  | _ => none

/-- All sources that calls add, in the order of their kinds. -/
def sources (setups : List Setup) (files : Files) : List Write :=
  (setups.filterMap file?).map (.loadFile files) ++
    ((setups.filterMap document?).map (fun d => .loadDocument d.1 d.2) ++
      (setups.filterMap feature?).map fun e => .insert e.1 e.2)

/-- What the last call of a kind chooses. -/
def last? {α : Type} (choice? : Setup → Option α) (setups : List Setup) : Option α :=
  setups.reverse.findSome? choice?

theorem last?_append {α : Type} (choice? : Setup → Option α) (setups : List Setup)
    (setup : Setup) :
    last? choice? (setups ++ [setup]) = (choice? setup).or (last? choice? setups) := by
  rw [last?, List.reverse_append, List.reverse_singleton, List.singleton_append,
    List.findSome?_cons]
  cases choice? setup <;> rfl

end Setup

/-- Whether calls agree in all that an assembly depends on. -/
structure SameChoices (setups setups' : List Setup) : Prop where
  files : setups.filterMap Setup.file? = setups'.filterMap Setup.file?
  documents : setups.filterMap Setup.document? = setups'.filterMap Setup.document?
  features : setups.filterMap Setup.feature? = setups'.filterMap Setup.feature?
  settings : Setup.last? Setup.settings? setups = Setup.last? Setup.settings? setups'
  builder : Setup.last? Setup.builder? setups = Setup.last? Setup.builder? setups'

/-- Sources are collected by kind; of settings and context builders the last ones count. -/
theorem ofSetups_eq (setups : List Setup) :
    ofSetups setups =
      { files := setups.filterMap Setup.file?
        documents := setups.filterMap Setup.document?
        features := setups.filterMap Setup.feature?
        settings := (Setup.last? Setup.settings? setups).getD .default
        builder := Setup.last? Setup.builder? setups } := by
  induction setups using List.reverseRecOn with
  | nil => rfl
  | append_singleton setups setup ih =>
    have step : ofSetups (setups ++ [setup]) = (ofSetups setups).setUp setup :=
      List.foldl_append
    rw [step, ih]
    simp only [List.filterMap_append, Setup.last?_append]
    cases setup <;>
      simp [setUp, addFile, addDocument, addFeature, setSettings, setValidateOnAdd, setBuilder,
        Setup.file?, Setup.document?, Setup.feature?, Setup.settings?, Setup.builder?]

/-- The settings that calls choose. -/
def Setup.settings (setups : List Setup) : ManagerSettings := (last? settings? setups).getD .default

theorem settings_ofSetups (setups : List Setup) :
    (ofSetups setups).settings = Setup.settings setups := by
  rw [ofSetups_eq]
  rfl

theorem builder_ofSetups (setups : List Setup) :
    (ofSetups setups).builder = Setup.last? Setup.builder? setups := by
  rw [ofSetups_eq]

theorem sources_ofSetups (setups : List Setup) (files : Files) :
    (ofSetups setups).sources files = Setup.sources setups files := by
  rw [ofSetups_eq]
  rfl

theorem SameChoices.ofSetups {setups setups' : List Setup} (h : SameChoices setups setups') :
    Assembly.ofSetups setups = Assembly.ofSetups setups' := by
  rw [ofSetups_eq, ofSetups_eq, h.files, h.documents, h.features, h.settings, h.builder]

end Assembly

/-! ## The store of an assembled manager -/

namespace Store

theorem compiled_insertMany_empty (entries : List (String × Json)) :
    (Store.empty.insertMany entries).compiled = ∅ := by
  apply KeyMap.ext_get?
  intro name
  by_cases listed : ∃ e ∈ entries, e.1 = name
  · exact insertMany_uncompiled listed .empty
  · have unlisted : ∀ e ∈ entries, e.1 ≠ name := fun e member same => listed ⟨e, member, same⟩
    exact (insertMany_unlisted unlisted .empty).2

/-- A name has the config that is listed last for it. -/
theorem config_insertMany_empty (entries : List (String × Json)) (name : String) :
    ((Store.empty.insertMany entries).configs.get? name).map StoredConfig.config =
      findEntry name entries.reverse := by
  have plain := plainConfigs_insertMany .empty entries
  have found := congrArg (KeyMap.get? · name) plain
  simp only [plainConfigs, KeyMap.get?_map, KeyMap.get?_insertMany] at found
  rw [found]
  exact Option.or_none

theorem mem_names_insertMany_empty (entries : List (String × Json)) (name : String) :
    name ∈ (Store.empty.insertMany entries).names ↔ ∃ config, (name, config) ∈ entries := by
  rw [names, KeyMap.mem_keys_iff]
  have last := config_insertMany_empty entries name
  constructor
  · rintro ⟨entry, found⟩
    rw [found] at last
    exact ⟨entry.config, List.mem_reverse.mp (KeyMap.mem_of_findEntry last.symm)⟩
  · rintro ⟨config, member⟩
    cases found : (Store.empty.insertMany entries).configs.get? name with
    | some entry => exact ⟨entry, rfl⟩
    | none =>
      obtain ⟨before, config', rest, parts, behind⟩ := exists_last ⟨(name, config), member, rfl⟩
      rw [parts, (insertMany_listed behind .empty before config').1] at found
      cases found

theorem names_increase (st : Store) : st.names.Pairwise (· < ·) :=
  List.pairwise_map.mpr st.configs.ordered

end Store

/-! ## What is built -/

theorem Interleaving.Write.nodup_documentEntries (content : String) (format : DocumentFormat) :
    ((documentEntries content format).map Prod.fst).Nodup := by
  unfold documentEntries
  split
  · rename_i members found
    exact KeyMap.nodup_keys ⟨members, Document.inKeyOrder_value found members rfl⟩
  · exact .nil

namespace Assembly

/-- No source mentions a name twice. -/
theorem nodup_sources {setups : List Setup} {files : Files} {w : Write}
    (h : w ∈ Setup.sources setups files) : (w.entries.map Prod.fst).Nodup := by
  simp only [Setup.sources, List.mem_append, List.mem_map] at h
  rcases h with ⟨path, -, rfl⟩ | ⟨d, -, rfl⟩ | ⟨e, -, rfl⟩
  · rw [Write.entries]
    cases RuleManager.fileText? files path with
    | none => exact .nil
    | some content => exact Write.nodup_documentEntries content _
  · exact Write.nodup_documentEntries d.1 d.2
  · exact List.pairwise_singleton _ e.1

/-- What a manager holds that was built from calls. -/
structure Holds (setups : List Setup) (files : Files) (m : RuleManager) : Prop where
  builder : m.builder = (Setup.last? Setup.builder? setups).getD .asIs
  settings : m.settings = Setup.settings setups
  /-- The last source that mentions a name decides its config. -/
  last : ∀ before w after name config, Setup.sources setups files = before ++ w :: after →
    (name, config) ∈ w.entries → (∀ x ∈ after, ∀ other, (name, other) ∉ x.entries) →
    (m.store.configs.get? name).map StoredConfig.config = some config
  names : ∀ name, name ∈ m.names ↔
    ∃ w ∈ Setup.sources setups files, ∃ config, (name, config) ∈ w.entries
  ordered : m.names.Pairwise (· < ·)
  uncompiled : m.compiledCount = 0

/-- What building comes to after calls. -/
structure Precedence (setups : List Setup) (files : Files)
    (outcome : Except ManagerError RuleManager) : Prop where
  /-- The first source that fails under the settings chosen last decides the error. -/
  failed : ∀ e, outcome = .error e ↔
    FirstFails (Setup.settings setups).validateOnAdd (Setup.sources setups files) e
  succeeds : (∃ m, outcome = .ok m) ↔ ∀ w ∈ Setup.sources setups files, ∀ e,
    ¬ w.Fails (Setup.settings setups).validateOnAdd e
  holds : ∀ m, outcome = .ok m → Holds setups files m

theorem findEntry_sources {setups : List Setup} {files : Files} {before after : List Write}
    {w : Write} (parts : Setup.sources setups files = before ++ w :: after) {name : String}
    {config : Json} (mentioned : (name, config) ∈ w.entries)
    (last : ∀ x ∈ after, ∀ other, (name, other) ∉ x.entries) :
    findEntry name ((Setup.sources setups files).flatMap Write.entries).reverse = some config := by
  have source : w ∈ Setup.sources setups files := by
    rw [parts]
    exact List.mem_append_right before List.mem_cons_self
  have distinct := nodup_sources source
  have own : findEntry name w.entries.reverse = some config := by
    rw [KeyMap.findEntry_reverse distinct]
    exact (KeyMap.findEntry_eq_some_iff distinct).mpr mentioned
  have behind : findEntry name (after.flatMap Write.entries).reverse = none := by
    rw [Option.eq_none_iff_forall_ne_some]
    intro other found
    obtain ⟨x, later, again⟩ :=
      List.mem_flatMap.mp (List.mem_reverse.mp (KeyMap.mem_of_findEntry found))
    exact last x later other again
  rw [parts, List.flatMap_append, List.flatMap_cons, List.reverse_append, List.reverse_append,
    KeyMap.findEntry_append, KeyMap.findEntry_append, behind, own]
  rfl

theorem holds_built (setups : List Setup) (files : Files) :
    Holds setups files ⟨(Setup.last? Setup.builder? setups).getD .asIs, Setup.settings setups,
      Store.empty.insertMany ((Setup.sources setups files).flatMap Write.entries), 0⟩ where
  builder := rfl
  settings := rfl
  last := by
    intro before w after name config parts mentioned last
    exact (Store.config_insertMany_empty _ name).trans (findEntry_sources parts mentioned last)
  names := by
    intro name
    have mem := Store.mem_names_insertMany_empty
      ((Setup.sources setups files).flatMap Write.entries) name
    simp only [List.mem_flatMap] at mem
    constructor
    · intro named
      obtain ⟨config, w, source, mentioned⟩ := mem.mp named
      exact ⟨w, source, config, mentioned⟩
    · rintro ⟨w, source, config, mentioned⟩
      exact mem.mpr ⟨config, w, source, mentioned⟩
  ordered := Store.names_increase _
  uncompiled := congrArg KeyMap.size (Store.compiled_insertMany_empty _)

theorem precedence_build (setups : List Setup) (files : Files) :
    Precedence setups files ((ofSetups setups).build files).outcome := by
  rw [outcome_build, settings_ofSetups, builder_ofSetups, sources_ofSetups]
  cases gathered : gather (Setup.settings setups).validateOnAdd (Setup.sources setups files) with
  | error e =>
    have first := gather_eq_error_iff.mp gathered
    refine ⟨?_, ⟨nofun, fun passed => absurd passed first.not_forall⟩, nofun⟩
    intro e'
    rw [← gather_eq_error_iff, gathered]
    constructor
    · intro failed
      obtain rfl := Except.error.inj failed
      rfl
    · intro failed
      obtain rfl := Except.error.inj failed
      rfl
  | ok entries =>
    obtain ⟨passed, rfl⟩ := gather_eq_ok gathered
    refine ⟨?_, ⟨fun _ => passed, fun _ => ⟨_, rfl⟩⟩, ?_⟩
    · intro e
      exact ⟨nofun, fun first => absurd passed first.not_forall⟩
    · intro m done
      obtain rfl := Except.ok.inj done
      exact holds_built setups files

/-- Calls with the same sources of each kind, the same last settings and the same last context
builder build the same, and what they build follows the precedence of the sources. -/
theorem build_precedence :
    (∀ (setups setups' : List Setup) (files : Files), SameChoices setups setups' →
      (ofSetups setups).build files = (ofSetups setups').build files) ∧
    ∀ (setups : List Setup) (files : Files),
      Precedence setups files ((ofSetups setups).build files).outcome := by
  refine ⟨?_, precedence_build⟩
  intro setups setups' files same
  rw [same.ofSetups]

/-- A document with two features, not in key order. -/
def twoFeatures : String := "\x7b\"c\":\x7b\"name\":\"d\"\x7d,\"a\":\x7b\x7d\x7d"

theorem lists_twoFeatures : Document.Lists twoFeatures .json
    [("a", .object []), ("c", .object [("name", .string "d")])] := by
  have text : (Json.parse? twoFeatures).map Json.render = some (Json.render
      (.object [("a", .object []), ("c", .object [("name", .string "d")])])) := by decide +kernel
  obtain ⟨v, parsed, same⟩ := Option.map_eq_some_iff.mp text
  obtain rfl := Json.render_injective same
  refine .members ?_
  rw [Document.value, parsed]
  rfl

/-- A feature, and then a document that mentions it too, and another one. -/
def mixedSetups : List Setup :=
  [.addFeature "a" (.object [("name", .string "b")]), .setValidateOnAdd true,
    .addDocument twoFeatures .json, .setSettings .default]

/-- The calls of `mixedSetups` by kind, without the settings that are overridden. -/
def sortedSetups : List Setup :=
  [.addDocument twoFeatures .json, .addFeature "a" (.object [("name", .string "b")]),
    .setSettings .default]

theorem build_precedence_mixedSetups :
    SameChoices mixedSetups sortedSetups ∧
      ((ofSetups mixedSetups).build fun _ => none) = (ofSetups sortedSetups).build (fun _ => none) ∧
      (∃ m, ((ofSetups mixedSetups).build fun _ => none).outcome = .ok m ∧
        (m.store.configs.get? "a").map StoredConfig.config =
          some (.object [("name", .string "b")]) ∧
        (m.store.configs.get? "c").map StoredConfig.config =
          some (.object [("name", .string "d")]) ∧
        ∀ name, name ∈ m.names ↔ name = "a" ∨ name = "c") ∧
      ((ofSetups (mixedSetups ++ [.addFile "b.json"])).build fun _ => none).outcome =
        .error .unreadableFile := by
  have same : SameChoices mixedSetups sortedSetups := ⟨rfl, rfl, rfl, rfl, rfl⟩
  refine ⟨same, build_precedence.1 _ _ _ same, ?_, ?_⟩
  · have precedence := build_precedence.2 mixedSetups fun _ => none
    have listed := Write.documentEntries_eq lists_twoFeatures
    have passed : ∀ w ∈ Setup.sources mixedSetups fun _ => none, ∀ e, ¬ w.Fails false e := by
      refine List.forall_mem_cons.mpr ⟨?_, List.forall_mem_singleton.mpr ?_⟩
      · exact Write.passes_of_lists lists_twoFeatures (by simp [Json.isObject])
      · rintro e ⟨refused⟩
        cases refused with
        | notMapping shape => cases shape
        | compile _ eager => cases eager
    obtain ⟨m, done⟩ := precedence.succeeds.mpr passed
    have holds := precedence.holds m done
    refine ⟨m, done, ?_, ?_, ?_⟩
    · -- the feature stands behind the document
      exact holds.last [_] _ [] "a" _ rfl (.head _) (List.forall_mem_nil _)
    · -- only the document mentions this name
      refine holds.last [] _ [_] "c" _ rfl ?_ ?_
      · simp [Write.entries, listed]
      · simp [Write.entries]
    · intro name
      have sources : Setup.sources mixedSetups (fun _ => none) =
        [.loadDocument twoFeatures .json, .insert "a" (.object [("name", .string "b")])] := rfl
      rw [holds.names, sources]
      simp [Write.entries, listed, exists_or, or_right_comm]
  · have precedence := build_precedence.2 (mixedSetups ++ [.addFile "b.json"]) fun _ => none
    exact (precedence.failed _).mpr ⟨[], _, _, rfl, List.forall_mem_nil _, .unreadable rfl⟩

end Assembly

end FeatureGate
