import FeatureGate.Context.Identity

/-!
# Contexts

A context holds the attributes that features are checked against. Its identity is computed when it
is first asked for and then kept; a change of the attributes drops it.
-/

namespace FeatureGate

structure Context where
  attributes : KeyMap Json
  /-- The identity, once it has been asked for. -/
  kept : Option ContextId

/-- Why a value is no context. -/
inductive ContextError where
  | notObject (typeName : String)
  /-- A builder of contexts gave up. -/
  | refused (reason : String)
deriving DecidableEq

def ContextError.message : ContextError → String
  | .notObject t => s!"Invalid context: expected an object, got {t}"
  | .refused reason => s!"Invalid value: {reason}"

namespace Context

def ofAttributes (attributes : KeyMap Json) : Context := ⟨attributes, none⟩

def empty : Context := ofAttributes ∅

/-- The context whose attributes are the members of an object. -/
def ofJson (v : Json) : Except ContextError Context :=
  match v with
  | .object members => .ok (ofAttributes (.ofList members))
  | v => .error (.notObject v.typeName)

/-- Adds an attribute, or replaces the one of the same key. -/
def insert (ctx : Context) (key : String) (value : Json) : Context :=
  ofAttributes (ctx.attributes.insert key value)

def get? (ctx : Context) (key : String) : Option Json := ctx.attributes.get? key

/-- Whether there is an attribute of this key; a null attribute counts. -/
def has (ctx : Context) (key : String) : Bool := ctx.attributes.contains key

def size (ctx : Context) : Nat := ctx.attributes.size

def keys (ctx : Context) : List String := ctx.attributes.keys

/-- The canonical text of the attributes. -/
def canonical (ctx : Context) : String := canonicalText ctx.attributes

/-- The identity, kept or computed. -/
def identity (ctx : Context) : ContextId := ctx.kept.getD (.ofText ctx.canonical)

/-- The context after its identity has been asked for. -/
def identified (ctx : Context) : Context := { ctx with kept := some ctx.identity }

/-- A context of the same attributes, which keeps the identity if it is kept already. -/
def copy (ctx : Context) : Context :=
  match ctx.kept with
  | none => ofAttributes ctx.attributes
  | some id => { ofAttributes ctx.attributes with kept := some id }

theorem copy_eq (ctx : Context) : ctx.copy = ctx := by
  obtain ⟨attributes, kept⟩ := ctx
  cases kept <;> rfl

/-- Whether two contexts hold equal attributes. -/
def same (a b : Context) : Bool :=
  Json.sameMembers a.attributes.entries b.attributes.entries

/-- The bucket of the context among those that rollouts are measured by. -/
def bucket (ctx : Context) : Nat := (ctx.identity.bucket rolloutBuckets).toNat

theorem bucket_eq (ctx : Context) : ctx.bucket = ctx.identity.value % 100 :=
  ctx.identity.toNat_bucket (by decide)

end Context

end FeatureGate
