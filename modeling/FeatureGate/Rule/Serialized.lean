import FeatureGate.Json.Tree
import FeatureGate.Rule.Feature

/-!
# Rules in serialized form

Rules are written as objects with their fields in a fixed order, and read back by the type that is
expected. A record is read from an object, whose other members are ignored whatever they hold, or
from an array with all its fields in order. Nothing tells the kind of a scalar or of a comparand but
its value: the kinds are tried in the order in which they are declared, and the first that reads the
value is taken.
-/

namespace FeatureGate

/-! ## Writing -/

def Condition.toJson (c : Condition) : Json :=
  .object [("property", .string c.property), ("op", .string c.op.name), ("value", c.value.toJson)]

def Segment.toJson (s : Segment) : Json :=
  .object [("name", .string s.name), ("conditions", .array (s.conditions.map Condition.toJson)),
    ("rollout", s.rollout.elim .null .ofBinary64)]

def Feature.toJson (f : Feature) : Json :=
  .object [("name", .string f.name), ("segments", .array (f.segments.map Segment.toJson))]

/-! ## Reading -/

namespace Json.Tree

/-- The value of the member with the given key, if there is exactly one; `none` if it repeats. -/
def memberOnce? (members : List (Option String × Tree)) (key : String) : Option (Option Tree) :=
  match members.filter fun m => m.1 = some key with
  | [] => some none
  | [m] => some (some m.2)
  | _ => none

/-- The fields of a record by name, absent ones as `none`. Keys without a value and repeated fields
are refused. -/
def fields? (names : List String) : Tree → Option (List (Option Tree))
  | .object members =>
    if members.all (·.1.isSome) then names.mapM (memberOnce? members) else none
  | .array items => if items.length = names.length then some (items.map some) else none
  | _ => none

def toBool? : Tree → Option Bool
  | .bool b => some b
  | _ => none

/-- An integer of 64 signed bits. A binary64 number is no integer, whatever its value. -/
def toInt64? : Tree → Option Int64
  | .number (some (.int n _)) => if -2 ^ 63 ≤ n ∧ n < 2 ^ 63 then some (.ofInt n) else none
  | _ => none

/-- A number of either kind; an integer is rounded to the nearest binary64 number. -/
def toBinary64? : Tree → Option Binary64
  | .number n => n.map Number.toBinary64
  | _ => none

def toString? : Tree → Option String
  | .text s => s
  | _ => none

/-- The values of all items of an array. -/
def listOf? {α : Type} (read : Tree → Option α) : Tree → Option (List α)
  | .array items => items.mapM read
  | _ => none

end Json.Tree

open Json (Tree)

def Scalar.ofTree? (t : Tree) : Option Scalar :=
  t.toBool?.map .bool <|> t.toInt64?.map .int <|> t.toBinary64?.map .float <|> t.toString?.map .text

def Comparand.ofTree? (t : Tree) : Option Comparand :=
  (Scalar.ofTree? t).map .scalar <|> (t.listOf? Scalar.ofTree?).map .list

def Operator.ofTree? (t : Tree) : Option Operator := t.toString?.map .ofName

def Condition.ofTree? (t : Tree) : Option Condition :=
  match t.fields? ["property", "op", "value"] with
  | some [some property, some op, some value] => do
    let property ← property.toString?
    let op ← Operator.ofTree? op
    let value ← Comparand.ofTree? value
    return ⟨property, op, value⟩
  | _ => none

/-- A rollout that is absent or null is no rollout; any number is one. -/
def rolloutOfTree? : Option Tree → Option (Option Binary64)
  | none | some .null => some none
  | some t => t.toBinary64?.map some

def Segment.ofTree? (t : Tree) : Option Segment :=
  match t.fields? ["name", "conditions", "rollout"] with
  | some [some name, some conditions, rollout] => do
    let name ← name.toString?
    let conditions ← conditions.listOf? Condition.ofTree?
    let rollout ← rolloutOfTree? rollout
    return ⟨name, conditions, rollout⟩
  | _ => none

def Feature.ofTree? (t : Tree) : Option Feature :=
  match t.fields? ["name", "segments"] with
  | some [some name, some segments] => do
    let name ← name.toString?
    let segments ← segments.listOf? Segment.ofTree?
    return ⟨name, segments⟩
  | _ => none

end FeatureGate
