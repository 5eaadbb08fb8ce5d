import FeatureGate.Json.Basic
import FeatureGate.Binary64.Layout
import FeatureGate.Text.Quoted

/-!
# Configured values

A condition compares an attribute with a scalar or with a list of scalars. Numbers are compared by
their exact value, whichever way the two sides are held.
-/

namespace FeatureGate

inductive Scalar where
  | bool (b : Bool)
  | int (n : Int64)
  | float (x : Binary64)
  | text (s : String)
deriving DecidableEq

namespace Scalar

/-- Integers of 64 signed bits stay integers; other numbers become the nearest binary64 number. -/
def ofNumber : Json.Number → Scalar
  | .int n h => if n < 2 ^ 63 then .int (.ofInt n) else .float (Json.Number.toBinary64 (.int n h))
  | .float x => .float (.finite x)

def ofJson? : Json → Option Scalar
  | .bool b => some (.bool b)
  | .number n => some (ofNumber n)
  | .string s => some (.text s)
  | _ => none

/-- Whether an attribute has the value of the scalar. -/
def equals (s : Scalar) (v : Json) : Bool :=
  match s, v with
  | .bool a, .bool b => a == b
  | .text a, .string b => a == b
  | .int a, .number (.int b _) => a.toInt == b
  | .int a, .number (.float y) => y.toInt? == some a.toInt
  | .float (.finite x), .number (.int b _) => x.toInt? == some b
  | .float (.finite x), .number (.float y) => x.same y
  | _, _ => false

/-- Equality of scalars of one kind; floats are compared numerically. -/
def same : Scalar → Scalar → Bool
  | .bool a, .bool b => a == b
  | .int a, .int b => a == b
  | .float x, .float y => x.same y
  | .text a, .text b => a == b
  | _, _ => false

/-- The scalar in a message. -/
def display : Scalar → String
  | .bool b => if b then "true" else "false"
  | .int n => String.ofList (NumberLayout.signed (n < 0) (Nat.toDigits 10 n.toInt.natAbs))
  | .float x => x.plainText
  | .text s => quoteForMessage s

def toJson : Scalar → Json
  | .bool b => .bool b
  | .int n => (Json.Number.ofInt? n.toInt).elim .null .number
  | .float x => .ofBinary64 x
  | .text s => .string s

end Scalar

/-- What a condition compares an attribute with. -/
inductive Comparand where
  | scalar (s : Scalar)
  | list (items : List Scalar)
deriving DecidableEq

/-- Why a value cannot be compared with. -/
inductive ComparandError where
  | notComparable (typeName : String)
  | itemNotScalar (typeName : String)
deriving DecidableEq

def ComparandError.message : ComparandError → String
  | .notComparable t => s!"Invalid value: expected a scalar or a list of scalars, got {t}"
  | .itemNotScalar t => s!"Invalid value: list elements must be scalars, got {t}"

namespace Comparand

def scalarsOfItems : List Json → Except ComparandError (List Scalar)
  | [] => .ok []
  | v :: vs =>
    match Scalar.ofJson? v with
    | none => .error (.itemNotScalar v.typeName)
    | some s => (scalarsOfItems vs).map (s :: ·)

def ofJson (v : Json) : Except ComparandError Comparand :=
  match v with
  | .array items => (scalarsOfItems items).map .list
  | v =>
    match Scalar.ofJson? v with
    | none => .error (.notComparable v.typeName)
    | some s => .ok (.scalar s)

def items? : Comparand → Option (List Scalar)
  | .scalar _ => none
  | .list items => some items

def matchItems : List Scalar → List Json → Bool
  | [], [] => true
  | s :: ss, v :: vs => s.equals v && matchItems ss vs
  | _, _ => false

/-- Whether an attribute has the value; a list equals an array of the same length item by item. -/
def equals (c : Comparand) (v : Json) : Bool :=
  match c, v with
  | .scalar s, v => s.equals v
  | .list items, .array vs => matchItems items vs
  | .list _, _ => false

/-- Whether an attribute is an item of the list; a scalar has no items. -/
def contains? (c : Comparand) (v : Json) : Option Bool :=
  c.items?.map fun items => items.any fun s => s.equals v

def sameItems : List Scalar → List Scalar → Bool
  | [], [] => true
  | x :: xs, y :: ys => x.same y && sameItems xs ys
  | _, _ => false

def same : Comparand → Comparand → Bool
  | .scalar a, .scalar b => a.same b
  | .list xs, .list ys => sameItems xs ys
  | _, _ => false

def toJson : Comparand → Json
  | .scalar s => s.toJson
  | .list items => .array (items.map Scalar.toJson)

end Comparand

end FeatureGate
