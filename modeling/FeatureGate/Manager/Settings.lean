import FeatureGate.Rule.Serialized

/-!
# Settings of managers
-/

namespace FeatureGate

structure ManagerSettings where
  /-- Whether configs are compiled before they are stored, so that faulty ones are refused. -/
  validateOnAdd : Bool
deriving DecidableEq

namespace ManagerSettings

/-- Configs are stored without being compiled. -/
def default : ManagerSettings := ⟨false⟩

def toJson (s : ManagerSettings) : Json := .object [("validate_on_add", .bool s.validateOnAdd)]

/-- Settings that are absent are off. -/
def ofTree? (t : Json.Tree) : Option ManagerSettings :=
  match t with
  | .array [] => some default
  | t =>
    match t.fields? ["validate_on_add"] with
    | some [none] => some default
    | some [some (.bool b)] => some ⟨b⟩
    | _ => none

end ManagerSettings

end FeatureGate
