import FeatureGate.Manager.Call
import FeatureGate.Manager.Error

/-!
# The flag manager

The simplest manager: every feature is on or off for all contexts.
-/

namespace FeatureGate

structure FlagManager where
  flags : KeyMap Bool

namespace FlagManager

/-- A call on a flag manager. -/
abbrev FlagCall := Call FlagManager ManagerError

def new : FlagManager := ⟨∅⟩

/-- The last value of a repeated name stays. -/
def ofFlags (flags : List (String × Bool)) : FlagManager := ⟨.ofList flags⟩

def set (name : String) (enabled : Bool) : FlagCall Unit :=
  .modify fun m => ⟨m.flags.insert name enabled⟩

/-- Sets a flag from a config, which must be a boolean. -/
def insert (name : String) (config : Json) : FlagCall Unit :=
  match config with
  | .bool enabled => set name enabled
  | v => .fail (.notBoolean name v.typeName)

/-- Sets all flags of a document and counts them. -/
def loadDocument (content : String) (format : DocumentFormat) : FlagCall Nat := do
  let flags ← .ofExcept ((Document.booleans content format).mapError .document)
  .modify fun m => ⟨m.flags.insertMany flags⟩
  .emit (.flagsLoaded flags.length)
  return flags.length

/-- Whether a flag is on; an unknown one is off. -/
def has (m : FlagManager) (name : String) : Bool := (m.flags.get? name).getD false

def reset : FlagCall Unit := .modify fun _ => new

def size (m : FlagManager) : Nat := m.flags.size

end FlagManager

end FeatureGate
