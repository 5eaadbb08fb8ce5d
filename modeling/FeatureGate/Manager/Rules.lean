import FeatureGate.Config.Compile
import FeatureGate.Context.Builder
import FeatureGate.Manager.Call
import FeatureGate.Manager.Error
import FeatureGate.Manager.Settings
import FeatureGate.Manager.Store

/-!
# The rule manager

Holds feature configs by name, compiles a feature when it is first asked for, and answers whether a
feature is granted. A call for a feature looks it up, compiles outside the store, and then offers
the result to the store; `startFeature` and `settleFeature` are the two sides of the compilation, so
that other calls may be placed between them.
-/

namespace FeatureGate

structure RuleManager where
  builder : ContextBuilder
  settings : ManagerSettings
  store : Store
  /-- How many compilations for `feature` have succeeded. -/
  compilations : Nat

/-- The contents of files by path; a file that cannot be read has none. -/
abbrev Files := String → Option ByteArray

/-- Compiles a stored or offered config; a failure is reported as a warning. -/
def compileConfig (name : String) (config : Json) : Report ManagerError Feature :=
  let r := Feature.compile name config
  match r.outcome with
  | .ok feature => ⟨.ok feature, r.log⟩
  | .error e => ⟨.error (.compile name e), r.log ++ [.compileFailed name e]⟩

/-- The check that a config must pass to be stored. -/
def checkConfig (validate : Bool) (name : String) (config : Json) : Report ManagerError Unit :=
  if config.isObject then
    if validate then do
      let _ ← compileConfig name config
      return
    else return
  else do
    .emit (.configRefused name)
    .fail (.notMapping name config.typeName)

/-- Checks configs in order, up to the first that is refused. -/
def checkConfigs (validate : Bool) : List (String × Json) → Report ManagerError Unit
  | [] => return
  | (name, config) :: rest => do
    checkConfig validate name config
    checkConfigs validate rest

/-- Compiles all configs in order, up to the first that fails. -/
def validateConfigs : List (String × StoredConfig) → Report ManagerError Unit
  | [] => return
  | (name, entry) :: rest => do
    let _ ← compileConfig name entry.config
    validateConfigs rest

namespace RuleManager

def new (builder : ContextBuilder) (settings : ManagerSettings) : RuleManager :=
  ⟨builder, settings, .empty, 0⟩

/-- A call on a rule manager. -/
abbrev RuleCall := Call RuleManager ManagerError

def updateStore (f : Store → Store) : RuleCall Unit :=
  .modify fun m => { m with store := f m.store }

/-! ## Writing -/

/-- Stores one config, if it passes the check. -/
def insert (name : String) (config : Json) : RuleCall Unit := do
  let m ← .state
  .ofReport (checkConfig m.settings.validateOnAdd name config)
  updateStore (·.insert name config)
  .emit (.configStored name)

/-- Stores all configs in order, if all of them pass the check, and else none. -/
def extend (entries : List (String × Json)) : RuleCall Unit := do
  let m ← .state
  .ofReport (checkConfigs m.settings.validateOnAdd entries)
  updateStore (·.insertMany entries)
  .emit (.configsStored entries.length)

/-- Stores the configs of a document and counts them. -/
def loadDocument (content : String) (format : DocumentFormat) : RuleCall Nat := do
  let entries ← .ofReport ((Document.features content format).mapError .document)
  extend entries
  .emit (.documentLoaded entries.length format)
  return entries.length

/-- The text of a file, unless it is missing or no valid text. -/
def fileText? (files : Files) (path : String) : Option String :=
  (files path).bind String.fromUTF8?

/-- Stores the configs of a file, whose format follows from its name. -/
def loadFile (files : Files) (path : String) : RuleCall Nat := do
  match fileText? files path with
  | none => .fail .unreadableFile
  | some content =>
    let count ← loadDocument content (.ofPath path)
    .emit (.fileLoaded path)
    return count

/-- Forgets all features. -/
def reset : RuleCall Unit := do
  updateStore (·.clear)
  .emit .managerReset

/-! ## Asking -/

/-- Where a call for a feature stands before anything is kept. -/
inductive Start where
  | settled (c : Option Compiled)
  | compiled (revision : Nat) (c : Compiled)

/-- Compiles the config that a look-up has found. -/
def compileEntry (name : String) (entry : StoredConfig) : RuleCall Compiled := do
  let feature ← .ofReport (compileConfig name entry.config)
  .modify fun m => { m with compilations := m.compilations + 1 }
  let m ← .state
  return ⟨feature, m.compilations⟩

/-- Looks a feature up and compiles it if it is only configured. -/
def startFeature (name : String) : RuleCall Start := do
  let m ← .state
  match m.store.lookup name with
  | .unconfigured => return .settled none
  | .compiled c => return .settled (some c)
  | .configured entry => return .compiled entry.revision (← compileEntry name entry)

/-- Offers a compiled feature to the store, and answers the one that is kept, or the one offered if
its config is no longer the stored one. -/
def settleFeature (name : String) (revision : Nat) (c : Compiled) : RuleCall Compiled := do
  let m ← .state
  let (store, kept) := m.store.keep name revision c
  updateStore fun _ => store
  match kept with
  | some first =>
    .emit (.compiledKept name revision)
    return first
  | none =>
    .emit (.compiledStale name)
    return c

/-- The compiled feature of a name, with another call placed between its compilation and the attempt
to keep it. The other call is made only if something was compiled. -/
def featureDuring {β : Type} (name : String) (during : RuleCall β) :
    RuleCall (Option Compiled × Option β) := do
  match ← startFeature name with
  | .settled c => return (c, none)
  | .compiled revision c =>
    let b ← during
    let kept ← settleFeature name revision c
    return (some kept, some b)

/-- The compiled feature of a name; a name without a config has none. -/
def feature (name : String) : RuleCall (Option Compiled) := do
  return (← featureDuring name (pure ())).1

/-- Whether a compiled feature is granted to the context that is built of the raw attributes. -/
def judge (name : String) (raw : KeyMap Json) (c : Compiled) : RuleCall Bool := do
  let m ← .state
  match m.builder raw with
  | .error e => .fail (.context name e)
  | .ok ctx =>
    match c.feature.grantingSegment? ctx with
    | none => return false
    | some segment =>
      .emit (.granted c.feature.name segment.name)
      return true

/-- Whether a feature is granted, given the raw attributes. A name without a config is not, and then
no context is built. -/
def has (name : String) (raw : KeyMap Json) : RuleCall Bool := do
  match ← feature name with
  | none =>
    .emit (.unknownFeature name)
    return false
  | some c => judge name raw c

/-- Whether a feature is granted without any attributes. -/
def isEnabled (name : String) : RuleCall Bool := has name ∅

/-- Compiles the given configs in order, keeping nothing, and counts them. -/
def validateEntries (entries : List (String × StoredConfig)) : RuleCall Nat := do
  .ofReport (validateConfigs entries)
  .emit (.validated entries.length)
  return entries.length

/-- Compiles all stored configs, keeping nothing, and counts them. -/
def validateAll : RuleCall Nat := do
  let m ← .state
  validateEntries m.store.configs.entries

def contains (m : RuleManager) (name : String) : Bool := m.store.configs.contains name

def names (m : RuleManager) : List String := m.store.names

def size (m : RuleManager) : Nat := m.store.size

def compiledCount (m : RuleManager) : Nat := m.store.compiledCount

/-- The settings, the names and the number of compiled features in one line. -/
def summary (m : RuleManager) : String :=
  "RuleManager \x7b config: ManagerConfig \x7b validate_on_add: " ++
    (if m.settings.validateOnAdd then "true" else "false") ++ " \x7d, features: [" ++
    ", ".intercalate (m.names.map quoteForMessage) ++ "], compiled: " ++
    toString m.compiledCount ++ " \x7d"

end RuleManager

end FeatureGate
