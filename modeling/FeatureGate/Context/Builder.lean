import FeatureGate.Context.Basic

/-!
# Context builders

A context builder turns the raw attributes of a caller into the context that features are checked
against.
-/

namespace FeatureGate

abbrev ContextBuilder := KeyMap Json → Except ContextError Context

namespace ContextBuilder

/-- The raw attributes as they are. -/
def asIs : ContextBuilder := fun raw => .ok (.ofAttributes raw)

/-- The members of the object that a function makes of the raw attributes. -/
def ofFunction (f : Json → Json) : ContextBuilder := fun raw => Context.ofJson (f (.ofKeyMap raw))

end ContextBuilder

end FeatureGate
