import FeatureGate.Config.Field
import FeatureGate.Report
import FeatureGate.Rule.Feature

/-!
# Compiling configs

Conditions, segments and features from their configs. Fragments are read in document order and the
first one at fault ends the compilation. An operator of an unknown name compiles, with a warning.
-/

namespace FeatureGate

/-- The three parts of a condition. All must be there, and the first two must be strings. -/
def Condition.parts? (config : Json) : Option (String × String × Json) :=
  match Config.present? config "property", Config.present? config "op",
      Config.present? config "value" with
  | some (.string property), some (.string op), some value => some (property, op, value)
  | _, _, _ => none

def Condition.compile (config : Json) : Report ConfigError Condition :=
  match parts? config with
  | none => .fail (.invalidCondition config)
  | some (property, opName, value) =>
    match Comparand.ofJson value with
    | .error e => do
      .emit (.valueRejected e)
      .fail (.invalidCondition config)
    | .ok value => do
      let op := Operator.ofName opName
      unless op.isKnown do .emit (.unknownOperator property op.name)
      return ⟨property, op, value⟩

def Condition.compileAll : List Json → Report ConfigError (List Condition)
  | [] => return []
  | config :: configs => do
    let c ← Condition.compile config
    let cs ← compileAll configs
    return c :: cs

/-- The name of a segment whose config has none. -/
def Segment.defaultName : String := "unknown"

/-- A segment whose config has no rollout admits nothing. -/
def Segment.defaultRollout : Binary64 := .zero

/-- Whether a rollout lies between 0 and 100. -/
def Segment.isPercentage (rollout : Binary64) : Bool := rollout.atLeast 0 && rollout.atMost 100

/-- A config that is no mapping has no fields and compiles to the defaults. -/
def Segment.compile (config : Json) : Report ConfigError Segment := do
  let fragments ← .ofExcept (Config.items config "conditions")
  let conditions ← Condition.compileAll fragments
  let name := (← .ofExcept (Config.string? config "name")).getD defaultName
  let rollout := (← .ofExcept (Config.number? config "rollout")).getD defaultRollout
  unless isPercentage rollout do .fail (.rolloutOutside rollout name)
  unless config.isObject do .emit (.segmentNotMapping config)
  return ⟨name, conditions, some rollout⟩

def Segment.compileAll : List Json → Report ConfigError (List Segment)
  | [] => return []
  | config :: configs => do
    let s ← Segment.compile config
    let ss ← compileAll configs
    return s :: ss

def Feature.compile (name : String) (config : Json) : Report ConfigError Feature := do
  let fragments ← .ofExcept (Config.items config "segments")
  let segments ← Segment.compileAll fragments
  .emit (.featureCompiled name segments.length)
  return ⟨name, segments⟩

end FeatureGate
