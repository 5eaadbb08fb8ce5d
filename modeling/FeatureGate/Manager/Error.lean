import FeatureGate.Context.Basic
import FeatureGate.Document.Entries

/-!
# Errors of managers

Errors in the configuration are mended by the author of the flags, errors of integration by the host
that builds the contexts.
-/

namespace FeatureGate

inductive ManagerError where
  | notMapping (feature typeName : String)
  | notBoolean (feature typeName : String)
  | compile (feature : String) (source : ConfigError)
  | context (feature : String) (source : ContextError)
  | document (source : DocumentError)
  | unreadableFile

namespace ManagerError

def message : ManagerError → String
  | notMapping feature t => s!"Feature '{feature}' config must be a mapping. Received {t}"
  | notBoolean feature t => s!"Flag values must be true/false. Received {t} for '{feature}'"
  | compile feature source => s!"Feature '{feature}' failed to compile: {source.message}"
  | context feature source => s!"Generated context for {feature} is invalid: {source.message}"
  | document source => s!"Parser error: {source.message}"
  | unreadableFile => "I/O error"

def isConfigError : ManagerError → Bool
  | notMapping .. | notBoolean .. | compile .. | document .. => true
  | _ => false

def isIntegrationError : ManagerError → Bool
  | context .. => true
  | _ => false

end ManagerError

end FeatureGate
