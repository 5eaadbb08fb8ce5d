import FeatureGate.Rule.Feature

/-!
# The store of configs and compiled features

Every config is stored under a revision of its own. A compiled feature is kept beside its config
until that config is replaced or the store is cleared, and it is kept only if the config it was
compiled from is still the stored one. Revisions are never used again, so a compilation that began
before the store was cleared cannot be taken for one of a later config.
-/

namespace FeatureGate

structure StoredConfig where
  config : Json
  revision : Nat

/-- A compiled feature, with the number of the compilation that made it. -/
structure Compiled where
  feature : Feature
  serial : Nat
deriving DecidableEq

structure Store where
  configs : KeyMap StoredConfig
  compiled : KeyMap Compiled
  lastRevision : Nat

inductive Lookup where
  | unconfigured
  | compiled (c : Compiled)
  | configured (s : StoredConfig)

namespace Store

def empty : Store := ⟨∅, ∅, 0⟩

/-- The compiled feature if there is one, else the config. -/
def lookup (s : Store) (name : String) : Lookup :=
  match s.compiled.get? name with
  | some c => .compiled c
  | none =>
    match s.configs.get? name with
    | some entry => .configured entry
    | none => .unconfigured

/-- Stores a config under a new revision and drops what was compiled from the previous one. -/
def insert (s : Store) (name : String) (config : Json) : Store where
  configs := s.configs.insert name ⟨config, s.lastRevision + 1⟩
  compiled := s.compiled.erase name
  lastRevision := s.lastRevision + 1

def insertMany (s : Store) (entries : List (String × Json)) : Store :=
  entries.foldl (fun s e => s.insert e.1 e.2) s

/-- Whether the stored config of a name has the given revision. -/
def isCurrent (s : Store) (name : String) (revision : Nat) : Bool :=
  match s.configs.get? name with
  | some entry => entry.revision == revision
  | none => false

/-- Keeps a compiled feature if its config is still the stored one, and answers what is kept then:
the first feature that was kept for this config. -/
def keep (s : Store) (name : String) (revision : Nat) (c : Compiled) : Store × Option Compiled :=
  if s.isCurrent name revision then
    match s.compiled.get? name with
    | some first => (s, some first)
    | none => ({ s with compiled := s.compiled.insert name c }, some c)
  else (s, none)

/-- Forgets all configs and compiled features. -/
def clear (s : Store) : Store := ⟨∅, ∅, s.lastRevision⟩

def names (s : Store) : List String := s.configs.keys

def size (s : Store) : Nat := s.configs.size

def compiledCount (s : Store) : Nat := s.compiled.size

end Store

end FeatureGate
