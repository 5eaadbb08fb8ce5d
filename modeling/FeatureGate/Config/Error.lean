import FeatureGate.Json.Render
import FeatureGate.Binary64.Layout

/-!
# Errors in configs

Why a config does not compile. Each error names the offending field or quotes the offending
condition.
-/

namespace FeatureGate

/-- What a field may hold. -/
inductive FieldShape where
  | string
  | number
  | sequence
deriving DecidableEq

def FieldShape.describe : FieldShape → String
  | .string => "a string"
  | .number => "a number"
  | .sequence => "a sequence"

inductive ConfigError where
  /-- A condition lacks a part or has one of a wrong type. -/
  | invalidCondition (config : Json)
  | wrongType (field : String) (expected : FieldShape) (got : String)
  /-- The rollout of a segment is no percentage. -/
  | rolloutOutside (rollout : Binary64) (segment : String)

/-- The message about a field with a wrong value. -/
def invalidValueMessage (field problem : String) : String :=
  s!"Invalid value for field '{field}': {problem}"

def ConfigError.message : ConfigError → String
  | .invalidCondition config => s!"Condition with config {config.render} is invalid."
  | .wrongType field expected got =>
    invalidValueMessage field s!"expected {expected.describe}, got {got}"
  | .rolloutOutside rollout segment =>
    invalidValueMessage "rollout"
      s!"{rollout.plainText} is outside 0..=100 in segment '{segment}'"

end FeatureGate
