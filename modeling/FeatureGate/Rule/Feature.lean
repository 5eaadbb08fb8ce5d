import FeatureGate.Context.Basic
import FeatureGate.Rule.Operator
import FeatureGate.Rule.Value

/-!
# Conditions, segments and features

A condition holds of a context by one of its attributes, a segment admits the contexts that meet all
its conditions and fall inside its rollout, and a feature is granted by the first segment that
admits.
-/

namespace FeatureGate

structure Condition where
  property : String
  op : Operator
  value : Comparand
deriving DecidableEq

/-- Whether an attribute meets the comparison. Membership in a scalar is never met, nor is an
operator of an unknown name. -/
def Condition.accepts (c : Condition) (actual : Json) : Bool :=
  match c.op with
  | .equal => c.value.equals actual
  | .notEqual => !c.value.equals actual
  | .isIn => c.value.contains? actual == some true
  | .notIn => c.value.contains? actual == some false
  | .unknown _ => false

/-- Whether a context meets the condition. An absent attribute meets none. -/
def Condition.holds (c : Condition) (ctx : Context) : Bool :=
  match ctx.get? c.property with
  | none => false
  | some actual => c.accepts actual

def Condition.same (a b : Condition) : Bool :=
  a.property == b.property && a.op == b.op && a.value.same b.value

structure Segment where
  name : String
  conditions : List Condition
  /-- The percentage of contexts to admit; without one, all of them. -/
  rollout : Option Binary64
deriving DecidableEq

/-- Whether a bucket falls inside a rollout. A rollout of zero admits no bucket, not even the
first. -/
def rolloutAdmits (rollout : Binary64) (bucket : Nat) : Bool :=
  !rollout.isZero && rollout.atLeast bucket

/-- Whether the segment admits a context. -/
def Segment.admits (s : Segment) (ctx : Context) : Bool :=
  s.conditions.all (·.holds ctx) &&
    match s.rollout with
    | none => true
    | some rollout => rolloutAdmits rollout ctx.bucket

/-- Equality of absent or numerically equal rollouts. -/
def sameRollout : Option Binary64 → Option Binary64 → Bool
  | none, none => true
  | some x, some y => x.same y
  | _, _ => false

def sameConditions : List Condition → List Condition → Bool
  | [], [] => true
  | a :: as, b :: bs => a.same b && sameConditions as bs
  | _, _ => false

def Segment.same (a b : Segment) : Bool :=
  a.name == b.name && sameConditions a.conditions b.conditions && sameRollout a.rollout b.rollout

structure Feature where
  name : String
  segments : List Segment
deriving DecidableEq

namespace Feature

/-- The first segment that admits a context. -/
def grantingSegment? (f : Feature) (ctx : Context) : Option Segment :=
  f.segments.find? (·.admits ctx)

/-- Whether the feature is granted to a context. -/
def grants (f : Feature) (ctx : Context) : Bool := (f.grantingSegment? ctx).isSome

def sameSegments : List Segment → List Segment → Bool
  | [], [] => true
  | a :: as, b :: bs => a.same b && sameSegments as bs
  | _, _ => false

def same (a b : Feature) : Bool := a.name == b.name && sameSegments a.segments b.segments

end Feature

end FeatureGate
