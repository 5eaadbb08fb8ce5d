import FeatureGate.Config.Error

/-!
# Fields of configs

Typed reading of the members of a config. A null member counts as absent, and a config that is no
object has no members.
-/

namespace FeatureGate.Config

/-- A member that is there and not null. -/
def present? (config : Json) (field : String) : Option Json :=
  match config.member? field with
  | some .null => none
  | found => found

def string? (config : Json) (field : String) : Except ConfigError (Option String) :=
  match present? config field with
  | none => .ok none
  | some (.string s) => .ok (some s)
  | some v => .error (.wrongType field .string v.typeName)

def number? (config : Json) (field : String) : Except ConfigError (Option Binary64) :=
  match present? config field with
  | none => .ok none
  | some (.number n) => .ok (some n.toBinary64)
  | some v => .error (.wrongType field .number v.typeName)

/-- The items of an array; an absent one is empty. -/
def items (config : Json) (field : String) : Except ConfigError (List Json) :=
  match present? config field with
  | none => .ok []
  | some (.array vs) => .ok vs
  | some v => .error (.wrongType field .sequence v.typeName)

end FeatureGate.Config
