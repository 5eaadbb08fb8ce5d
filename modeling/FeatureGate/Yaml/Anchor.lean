import FeatureGate.KeyMap
import FeatureGate.Yaml.Node

/-!
# Anchors

The names of anchors are numbered before aliases are followed. A definition gets as its number the
count of the names that are known before it, so a name that is defined again may share its number
with a later name. An alias stands for the number of its name at its place, and this number for the
node that was given it last in the whole document.
-/

namespace FeatureGate.Yaml

/-- The number of every name that is known at a place; there is none for an unknown one. -/
abbrev Numbering := StateT (KeyMap Nat) Option

namespace Node

/-- Numbers the anchor of a node. -/
def define (props : Properties String) : Numbering (Properties Nat) := fun known =>
  match props.anchor with
  | none => some (⟨none, props.tag⟩, known)
  | some name => some (⟨some known.size, props.tag⟩, known.insert name known.size)

mutual

/-- Numbers the anchors of a node and what is in it, in the order of the document. An alias of a
name that is not known yet is refused. -/
def number : Node String → Numbering (Node Nat)
  | .text props s plain => return .text (← define props) s plain
  | .alias name => fun known => (known.get? name).map fun n => (.alias n, known)
  | .sequence props items => return .sequence (← define props) (← numberItems items)
  | .mapping props entries => return .mapping (← define props) (← numberEntries entries)

def numberItems : List (Node String) → Numbering (List (Node Nat))
  | [] => return []
  | item :: items => return (← number item) :: (← numberItems items)

def numberEntries : List (Node String × Node String) → Numbering (List (Node Nat × Node Nat))
  | [] => return []
  | (k, v) :: entries => return (← number k, ← number v) :: (← numberEntries entries)

end

/-- The node itself, if it has an anchor. -/
def named (props : Properties Nat) (node : Node Nat) : List (Nat × Node Nat) :=
  props.anchor.toList.map (·, node)

mutual

/-- The nodes with anchors, in the order of the document. -/
def anchored : Node Nat → List (Nat × Node Nat)
  | .text props s plain => named props (.text props s plain)
  | .alias _ => []
  | .sequence props items => named props (.sequence props items) ++ anchoredItems items
  | .mapping props entries => named props (.mapping props entries) ++ anchoredEntries entries

def anchoredItems : List (Node Nat) → List (Nat × Node Nat)
  | [] => []
  | item :: items => anchored item ++ anchoredItems items

def anchoredEntries : List (Node Nat × Node Nat) → List (Nat × Node Nat)
  | [] => []
  | (k, v) :: entries => anchored k ++ anchored v ++ anchoredEntries entries

end

mutual

/-- How many marks and texts a node takes: two for the ends of a collection, one for anything else.
-/
def weight {α : Type} : Node α → Nat
  | .text .. | .alias _ => 1
  | .sequence _ items => 2 + itemsWeight items
  | .mapping _ entries => 2 + entriesWeight entries

def itemsWeight {α : Type} : List (Node α) → Nat
  | [] => 0
  | item :: items => weight item + itemsWeight items

def entriesWeight {α : Type} : List (Node α × Node α) → Nat
  | [] => 0
  | (k, v) :: entries => weight k + weight v + entriesWeight entries

end

end Node

end FeatureGate.Yaml
