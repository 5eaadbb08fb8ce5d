import FeatureGate.Document.Entries
import Mathlib.Tactic.SplitIfs

/-!
# The entries of a document

Whatever a document is written in, its value lists the members of an object by increasing key, so
the entries of a document come in key order and no name repeats.
-/

namespace FeatureGate

namespace Json

/-- Whether a value, if it is an object, lists its members by increasing key. -/
def InKeyOrder (v : Json) : Prop := ∀ members, v = .object members → KeysIncrease members

theorem inKeyOrder_of_not_isObject {v : Json} (h : v.isObject = false) : v.InKeyOrder := by
  rintro members rfl
  cases h

theorem inKeyOrder_ofMembers (members : List (String × Json)) : (ofMembers members).InKeyOrder := by
  intro listed same
  rw [ofMembers_eq] at same
  obtain rfl := Json.object.inj same
  exact (KeyMap.ofList members).ordered

theorem Tree.inKeyOrder_value {room : Nat} {t : Tree} {v : Json} (h : t.value? room = some v) :
    v.InKeyOrder := by
  cases t with
  | null | bool =>
    obtain rfl := Option.some.inj h
    exact inKeyOrder_of_not_isObject rfl
  | number | text =>
    obtain ⟨-, -, rfl⟩ := Option.map_eq_some_iff.mp h
    exact inKeyOrder_of_not_isObject rfl
  | array items =>
    rw [value?] at h
    split at h
    · cases h
    · obtain ⟨-, -, rfl⟩ := Option.map_eq_some_iff.mp h
      exact inKeyOrder_of_not_isObject rfl
  | object members =>
    rw [value?] at h
    split at h
    · cases h
    · obtain ⟨ms, -, rfl⟩ := Option.map_eq_some_iff.mp h
      exact inKeyOrder_ofMembers ms

theorem inKeyOrder_parse {text : String} {v : Json} (h : parse? text = some v) : v.InKeyOrder := by
  obtain ⟨t, -, value⟩ := Option.bind_eq_some_iff.mp h
  exact t.inKeyOrder_value value

end Json

/-! ## YAML -/

namespace Yaml

namespace Scalar

theorem not_isObject_integerValue {n : Int} {v : Json} (h : integerValue? n = some v) :
    v.isObject = false := by
  obtain ⟨-, -, rfl⟩ := Option.map_eq_some_iff.mp h
  rfl

theorem not_isObject_ofBinary64 (x : Binary64) : (Json.ofBinary64 x).isObject = false := by
  cases x <;> rfl

theorem not_isObject_plainValue {s : String} {v : Json} (h : plainValue? s = some v) :
    v.isObject = false := by
  unfold plainValue? at h
  dsimp only at h
  split at h
  · obtain rfl := Option.some.inj h
    rfl
  · split at h
    · obtain rfl := Option.some.inj h
      rfl
    · exact not_isObject_integerValue h
    · split at h
      · obtain rfl := Option.some.inj h
        rfl
      · obtain rfl := Option.some.inj h
        cases float? s.toList with
        | none => rfl
        | some x => exact not_isObject_ofBinary64 x

theorem not_isObject_taggedValue {tag : Tag} {s : String} {plain : Bool} {v : Json}
    (h : taggedValue? tag s plain = some v) : v.isObject = false := by
  unfold taggedValue? at h
  split_ifs at h
  · obtain ⟨-, -, rfl⟩ := Option.map_eq_some_iff.mp h
    rfl
  · obtain ⟨n, -, value⟩ := Option.bind_eq_some_iff.mp h
    exact not_isObject_integerValue value
  · obtain ⟨x, -, rfl⟩ := Option.map_eq_some_iff.mp h
    exact not_isObject_ofBinary64 x
  · obtain rfl := Option.some.inj h
    rfl
  · exact not_isObject_plainValue h
  · obtain rfl := Option.some.inj h
    rfl

theorem not_isObject_value {tag : Option Tag} {s : String} {plain : Bool} {v : Json}
    (h : value? tag s plain = some v) : v.isObject = false := by
  unfold value? at h
  split at h
  · exact not_isObject_taggedValue h
  · split at h
    · exact not_isObject_plainValue h
    · obtain rfl := Option.some.inj h
      rfl

end Scalar

theorem Node.inKeyOrder_value {anchored : Anchored} {room : Nat} {node : Node Nat} {v : Json}
    {before after : Nat} (h : (value anchored room node).run before = some (v, after)) :
    v.InKeyOrder := by
  rw [value, StateT.run_bind] at h
  obtain ⟨⟨target, left⟩, -, h⟩ := Option.bind_eq_some_iff.mp h
  dsimp only at h
  cases target with
  | «alias» => cases h
  | text props s plain =>
    obtain ⟨w, found, same⟩ := Option.bind_eq_some_iff.mp h
    obtain ⟨rfl, -⟩ := Prod.mk.inj (Option.some.inj same)
    exact Json.inKeyOrder_of_not_isObject (Scalar.not_isObject_value found)
  | sequence props items =>
    cases room with
    | zero => cases h
    | succ room =>
      dsimp only at h
      split at h
      · cases h
      · rw [StateT.run_bind] at h
        obtain ⟨⟨vs, rest⟩, -, same⟩ := Option.bind_eq_some_iff.mp h
        obtain ⟨rfl, -⟩ := Prod.mk.inj (Option.some.inj same)
        exact Json.inKeyOrder_of_not_isObject rfl
  | mapping props entries =>
    cases room with
    | zero => cases h
    | succ room =>
      dsimp only at h
      split at h
      · cases h
      · rw [StateT.run_bind] at h
        obtain ⟨⟨ms, rest⟩, -, same⟩ := Option.bind_eq_some_iff.mp h
        obtain ⟨rfl, -⟩ := Prod.mk.inj (Option.some.inj same)
        exact Json.inKeyOrder_ofMembers ms

theorem inKeyOrder_parse {text : String} {v : Json} (h : parse? text = some v) : v.InKeyOrder := by
  obtain ⟨ts, -, h⟩ := Option.bind_eq_some_iff.mp h
  obtain ⟨root, -, h⟩ := Option.bind_eq_some_iff.mp h
  rw [Node.value?] at h
  obtain ⟨⟨numbered, marks⟩, -, h⟩ := Option.bind_eq_some_iff.mp h
  obtain ⟨⟨w, left⟩, found, same⟩ := Option.bind_eq_some_iff.mp h
  obtain rfl := Option.some.inj same
  exact Node.inKeyOrder_value found

end Yaml

/-! ## Entries -/

namespace Document

variable {content : String} {format : DocumentFormat}

theorem inKeyOrder_value {v : Json} (h : value content format = .ok v) : v.InKeyOrder := by
  cases format with
  | json =>
    rw [value] at h
    cases parsed : Json.parse? content with
    | none => simp [parsed] at h
    | some w =>
      rw [parsed] at h
      obtain rfl := Except.ok.inj h
      exact Json.inKeyOrder_parse parsed
  | yaml =>
    rw [value] at h
    split at h
    · obtain rfl := Except.ok.inj h
      exact Json.inKeyOrder_of_not_isObject rfl
    · cases parsed : Yaml.parse? content with
      | none => simp [parsed] at h
      | some w =>
        rw [parsed] at h
        obtain rfl := Except.ok.inj h
        exact Yaml.inKeyOrder_parse parsed

variable {listed : List (String × Json)} {flags : List (String × Bool)}

theorem Lists.keysIncrease (h : Lists content format listed) : KeysIncrease listed := by
  cases h with
  | members found => exact inKeyOrder_value found listed rfl
  | nothing => exact .nil

theorem keysIncrease_booleans (h : booleans content format = .ok flags) : KeysIncrease flags := by
  have ordered := (booleans_eq_ok_iff.mp h).keysIncrease
  rw [KeysIncrease, List.pairwise_map] at ordered
  exact ordered

end Document

end FeatureGate
