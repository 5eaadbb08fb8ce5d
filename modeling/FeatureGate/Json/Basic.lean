import FeatureGate.KeyMap
import FeatureGate.Binary64.Rounding

/-!
# JSON values

Numbers are integers of at most 64 bits or finite binary64 numbers, and stay apart even when equal
in value. The members of an object are listed by increasing key, each key once.
-/

namespace FeatureGate

namespace Json

/-- A number: an integer between `-2 ^ 63` and `2 ^ 64`, or a finite binary64 number. -/
inductive Number where
  | int (n : Int) (inRange : -2 ^ 63 ≤ n ∧ n < 2 ^ 64)
  | float (x : Finite64)
deriving DecidableEq

namespace Number

/-- An integer as a number, unless it needs more than 64 bits. -/
def ofInt? (n : Int) : Option Number :=
  if h : -2 ^ 63 ≤ n ∧ n < 2 ^ 64 then some (.int n h) else none

/-- The nearest binary64 number. -/
def toBinary64 : Number → Binary64
  | .int n _ => .ofInt n
  | .float x => .finite x

/-- Equality of numbers of one kind; an integer never equals a binary64 number. -/
def same : Number → Number → Bool
  | .int a _, .int b _ => a == b
  | .float x, .float y => x.same y
  | _, _ => false

end Number

end Json

inductive Json where
  | null
  | bool (b : Bool)
  | number (n : Json.Number)
  | string (s : String)
  | array (items : List Json)
  | object (members : List (String × Json))
deriving Inhabited

namespace Json

/-- Induction over values: a list or an object has what all its items or members have. -/
@[elab_as_elim]
theorem induction {P : Json → Prop} (null : P .null) (bool : ∀ b, P (.bool b))
    (number : ∀ n, P (.number n)) (string : ∀ s, P (.string s))
    (array : ∀ items, (∀ v ∈ items, P v) → P (.array items))
    (object : ∀ members, (∀ m ∈ members, P m.2) → P (.object members)) (v : Json) : P v :=
  match v with
  | .null => null
  | .bool b => bool b
  | .number n => number n
  | .string s => string s
  | .array items => array items fun v _ => induction null bool number string array object v
  | .object members =>
    object members fun m _ => induction null bool number string array object m.2
termination_by sizeOf v
decreasing_by
  · rename_i hv
    have less := List.sizeOf_lt_of_mem hv
    simp only [Json.array.sizeOf_spec]
    omega
  · rename_i hm
    have less := List.sizeOf_lt_of_mem hm
    cases m
    simp only [Json.object.sizeOf_spec, Prod.mk.sizeOf_spec] at less ⊢
    omega

/-- A binary64 number as a value; what is not finite becomes null. -/
def ofBinary64 : Binary64 → Json
  | .finite x => .number (.float x)
  | _ => .null

/-- The object with these members; the last value of a repeated key stays. -/
def ofMembers (members : List (String × Json)) : Json :=
  .object (members.foldl (fun ms m => insertEntry m.1 m.2 ms) [])

def ofKeyMap (m : KeyMap Json) : Json := .object m.entries

theorem ofMembers_eq (members : List (String × Json)) :
    ofMembers members = ofKeyMap (.ofList members) := by
  rw [ofMembers, ofKeyMap, KeyMap.ofList, KeyMap.entries_insertMany]
  rfl

/-- The member of an object with the given key. -/
def member? : Json → String → Option Json
  | .object members, key => findEntry key members
  | _, _ => none

def isObject : Json → Bool
  | .object _ => true
  | _ => false

/-- The name of the type of a value, for messages. -/
def typeName : Json → String
  | .null => "null"
  | .bool _ => "bool"
  | .number _ => "number"
  | .string _ => "string"
  | .array _ => "array"
  | .object _ => "object"

mutual

/-- Equality of values, with numbers compared by `Number.same`. -/
def same : Json → Json → Bool
  | .null, .null => true
  | .bool a, .bool b => a == b
  | .number a, .number b => a.same b
  | .string a, .string b => a == b
  | .array xs, .array ys => sameItems xs ys
  | .object xs, .object ys => sameMembers xs ys
  | _, _ => false

def sameItems : List Json → List Json → Bool
  | [], [] => true
  | x :: xs, y :: ys => same x y && sameItems xs ys
  | _, _ => false

def sameMembers : List (String × Json) → List (String × Json) → Bool
  | [], [] => true
  | (k, x) :: xs, (l, y) :: ys => k == l && same x y && sameMembers xs ys
  | _, _ => false

end

end Json

end FeatureGate
