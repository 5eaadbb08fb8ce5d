import FeatureGate.Manager.Rules

/-!
# Assembling rule managers

An assembly gathers settings and sources in any order. Building loads all files, then all inline
documents, then all single features, each in the order in which they were added, under the last
settings given.
-/

namespace FeatureGate

structure Assembly where
  files : List String
  documents : List (String × DocumentFormat)
  features : List (String × Json)
  settings : ManagerSettings
  builder : Option ContextBuilder

namespace Assembly

def empty : Assembly := ⟨[], [], [], .default, none⟩

def addFile (a : Assembly) (path : String) : Assembly := { a with files := a.files ++ [path] }

def addDocument (a : Assembly) (content : String) (format : DocumentFormat) : Assembly :=
  { a with documents := a.documents ++ [(content, format)] }

def addFeature (a : Assembly) (name : String) (config : Json) : Assembly :=
  { a with features := a.features ++ [(name, config)] }

def setSettings (a : Assembly) (settings : ManagerSettings) : Assembly :=
  { a with settings := settings }

def setValidateOnAdd (a : Assembly) (enable : Bool) : Assembly :=
  { a with settings := { a.settings with validateOnAdd := enable } }

def setBuilder (a : Assembly) (builder : ContextBuilder) : Assembly :=
  { a with builder := some builder }

open RuleManager

def loadFiles (files : Files) : List String → RuleCall Unit
  | [] => return
  | path :: rest => do
    let _ ← loadFile files path
    loadFiles files rest

def loadDocuments : List (String × DocumentFormat) → RuleCall Unit
  | [] => return
  | (content, format) :: rest => do
    let _ ← loadDocument content format
    loadDocuments rest

def insertFeatures : List (String × Json) → RuleCall Unit
  | [] => return
  | (name, config) :: rest => do
    insert name config
    insertFeatures rest

/-- Loads all sources into a manager. -/
def load (a : Assembly) (files : Files) : RuleCall Unit := do
  loadFiles files a.files
  loadDocuments a.documents
  insertFeatures a.features
  let m ← .state
  .emit (.managerBuilt m.size)

/-- The manager with all sources loaded, or the error of the first source that fails. -/
def build (a : Assembly) (files : Files) : Report ManagerError RuleManager :=
  let done := (a.load files).run (.new (a.builder.getD .asIs) a.settings)
  ⟨done.outcome.map fun _ => done.after, done.log⟩

end Assembly

/-- A manager that holds the given configs and compiles them when they are asked for. -/
def RuleManager.ofFeatures (builder : ContextBuilder) (entries : List (String × Json)) :
    Report ManagerError RuleManager :=
  let done := (RuleManager.extend entries).run (.new builder .default)
  ⟨done.outcome.map fun _ => done.after, done.log⟩

end FeatureGate
