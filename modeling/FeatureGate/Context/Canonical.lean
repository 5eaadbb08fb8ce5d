import FeatureGate.Json.Render

/-!
# Canonical text

Equal attributes have one text: compact JSON with the members of every object by increasing key,
whatever the order in which they are listed.
-/

namespace FeatureGate

namespace Json

mutual

/-- The value with the members of every object in increasing key order. -/
def ordered : Json → Json
  | .array items => .array (orderedItems items)
  | .object members => .ofMembers (orderedMembers members)
  | v => v

def orderedItems : List Json → List Json
  | [] => []
  | v :: vs => ordered v :: orderedItems vs

def orderedMembers : List (String × Json) → List (String × Json)
  | [] => []
  | (k, v) :: ms => (k, ordered v) :: orderedMembers ms

end

end Json

/-- The canonical text of attributes. -/
def canonicalText (attributes : KeyMap Json) : String :=
  (Json.ordered (.ofKeyMap attributes)).render

end FeatureGate
