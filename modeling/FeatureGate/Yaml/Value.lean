import FeatureGate.Yaml.Anchor
import FeatureGate.Yaml.Scalar

/-!
# The value of a YAML document

Aliases are followed while the value is made, each as often as it is written. Collections lie inside
one another at most `Yaml.maxDepth` deep, aliases included, and there is a limit to how many aliases
are followed, so a document that contains itself has no value.
-/

namespace FeatureGate.Yaml

/-- How many collections may lie inside one another. -/
def maxDepth : Nat := 128

/-- How many aliases are followed for each mark or text of a document. -/
def aliasesPerWeight : Nat := 100

/-- The nodes of a document that have an anchor, by number. -/
abbrev Anchored := List (Nat × Node Nat)

/-- What is read while some number of aliases may still be followed. -/
abbrev Following := StateT Nat Option

namespace Node

/-- The node that is meant at a place: the node itself, or what its alias stands for. -/
def target (anchored : Anchored) : Node Nat → Following (Node Nat)
  | .alias n => fun left =>
    if left = 0 then none else (anchored.lookup n).map (·, left - 1)
  | node => return node

/-- The text of a key. A collection is no key, and the tag of a key says nothing. -/
def keyText (anchored : Anchored) (node : Node Nat) : Following String := do
  match ← target anchored node with
  | .text _ s _ => return s
  | _ => failure

/-- Whether a collection has a tag of the writer's own making. -/
def hasCustomTag (props : Properties Nat) : Bool := props.tag.any Scalar.isCustomTag

/-- The value of a node, with at most `room` collections inside one another. -/
def value (anchored : Anchored) (room : Nat) (node : Node Nat) : Following Json := do
  match ← target anchored node with
  | .alias _ => failure
  | .text props s plain => StateT.lift (Scalar.value? props.tag s plain)
  | .sequence props items =>
    match room with
    | 0 => failure
    | room + 1 =>
      if hasCustomTag props then failure
      else return .array (← items.mapM (value anchored room))
  | .mapping props entries =>
    match room with
    | 0 => failure
    | room + 1 =>
      if hasCustomTag props then failure
      else
        let entries ← entries.mapM fun (k, v) => do
          return (← keyText anchored k, ← value anchored room v)
        return .ofMembers entries

/-- The value of a document. -/
def value? (root : Node String) : Option Json := do
  let (root, _) ← root.number.run ∅
  let (v, _) ← (value root.anchored.reverse maxDepth root).run (aliasesPerWeight * root.weight)
  return v

end Node

/-- The value of a YAML text of one document. A text of blanks and comments is null. -/
def parse? (text : String) : Option Json :=
  (tokens? text).bind fun ts => (Node.ofTokens? ts).bind Node.value?

end FeatureGate.Yaml
