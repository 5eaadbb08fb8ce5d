import FeatureGate.Diagnostic

/-!
# Formats of documents

The format of a file follows from the extension of its name: `json`, in any case, is JSON, and
everything else is YAML.
-/

namespace FeatureGate

namespace DocumentFormat

/-- The last component of a path. Empty components and single dots do not count; a path that ends in
two dots has none. -/
def fileName? (path : String) : Option (List Char) :=
  let components := (path.toList.splitOn '/').filter fun c => c ≠ [] ∧ c ≠ ['.']
  components.getLast?.filter (· ≠ ['.', '.'])

/-- What follows the last dot of a file name, unless that dot is the first character. -/
def extension? (name : List Char) : Option (List Char) :=
  match (name.splitOn '.').reverse with
  | last :: before :: rest => if rest = [] ∧ before = [] then none else some last
  | _ => none

def ofPath (path : String) : DocumentFormat :=
  match (fileName? path).bind extension? with
  | some ext => if ext.map Char.toLower = ['j', 's', 'o', 'n'] then .json else .yaml
  | none => .yaml

end DocumentFormat

end FeatureGate
