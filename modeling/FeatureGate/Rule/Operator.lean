/-!
# Operators

The four comparisons that a condition can ask for. A name that is none of them is kept, for messages
and for writing it back.
-/

namespace FeatureGate

inductive Operator where
  | equal
  | notEqual
  | isIn
  | notIn
  | unknown (name : String)
deriving DecidableEq

namespace Operator

def ofName (name : String) : Operator :=
  if name = "equal" then .equal
  else if name = "not_equal" then .notEqual
  else if name = "in" then .isIn
  else if name = "not_in" then .notIn
  else .unknown name

def name : Operator → String
  | .equal => "equal"
  | .notEqual => "not_equal"
  | .isIn => "in"
  | .notIn => "not_in"
  | .unknown name => name

/-- Whether the operator looks for an item of a list. -/
def isMembership : Operator → Bool
  | .isIn | .notIn => true
  | _ => false

def isKnown : Operator → Bool
  | .unknown _ => false
  | _ => true

end Operator

end FeatureGate
