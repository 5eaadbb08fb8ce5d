import FeatureGate.Config.Error
import FeatureGate.Rule.Value

/-!
# Diagnostics

What is worth telling about a computation besides its outcome. Every diagnostic has a level and one
line of text.
-/

namespace FeatureGate

/-- The two written forms of flag documents. -/
inductive DocumentFormat where
  | yaml
  | json
deriving DecidableEq

def DocumentFormat.name : DocumentFormat → String
  | .yaml => "Yaml"
  | .json => "Json"

inductive Level where
  | trace
  | debug
  | info
  | warn
deriving DecidableEq

def Level.name : Level → String
  | .trace => "TRACE"
  | .debug => "DEBUG"
  | .info => "INFO"
  | .warn => "WARN"

inductive Diagnostic where
  /-- A feature is granted by one of its segments. -/
  | granted (feature segment : String)
  | valueRejected (error : ComparandError)
  | unknownOperator (property op : String)
  /-- A segment that is no mapping consists of defaults. -/
  | segmentNotMapping (config : Json)
  | featureCompiled (feature : String) (segments : Nat)
  | documentRead (features : Nat)
  /-- A config that is no mapping is not stored. -/
  | configRefused (feature : String)
  | compileFailed (feature : String) (error : ConfigError)
  | compiledKept (feature : String) (revision : Nat)
  /-- The config was replaced while it was compiled. -/
  | compiledStale (feature : String)
  | configStored (feature : String)
  | configsStored (count : Nat)
  | documentLoaded (features : Nat) (format : DocumentFormat)
  | fileLoaded (path : String)
  | validated (features : Nat)
  | unknownFeature (feature : String)
  | managerReset
  | managerBuilt (features : Nat)
  | flagsLoaded (flags : Nat)

namespace Diagnostic

def level : Diagnostic → Level
  | granted .. | unknownFeature .. => .trace
  | unknownOperator .. | configRefused .. | compileFailed .. => .warn
  | documentLoaded .. | fileLoaded .. | managerReset | flagsLoaded .. => .info
  | _ => .debug

def text : Diagnostic → String
  | granted feature segment => s!"feature '{feature}' granted by segment '{segment}'"
  | valueRejected error => s!"condition value rejected: {error.message}"
  | unknownOperator property op =>
    s!"condition on '{property}' uses unknown operator '{op}' and will never match"
  | segmentNotMapping config => s!"segment config {config.render} is not a mapping, using defaults"
  | featureCompiled feature segments => s!"compiled feature '{feature}' with {segments} segment(s)"
  | documentRead features => s!"parsed flag document with {features} feature(s)"
  | configRefused feature => s!"Rejected non-mapping feature config feature={feature}"
  | compileFailed feature error =>
    s!"Feature config failed to compile feature={feature} error={error.message}"
  | compiledKept feature revision =>
    s!"Compiled and cached feature feature={feature} revision={revision}"
  | compiledStale feature => s!"Config changed during compile, result not cached feature={feature}"
  | configStored feature => s!"Stored feature config feature={feature}"
  | configsStored count => s!"Stored {count} feature config(s)"
  | documentLoaded features format => s!"Loaded {features} feature(s) from {format.name} document"
  | fileLoaded path => s!"Loaded flag document {path}"
  | validated features => s!"Validated {features} feature(s)"
  | unknownFeature feature => s!"Unknown feature checked feature={feature}"
  | managerReset => "Feature manager reset"
  | managerBuilt features => s!"Built rule manager with {features} feature(s)"
  | flagsLoaded flags => s!"Loaded {flags} boolean flag(s)"

/-- The line of a diagnostic. -/
def line (d : Diagnostic) : String := s!"{d.level.name} {d.text}"

end Diagnostic

end FeatureGate
