import FeatureGate.Proofs.Canonical
import FeatureGate.Proofs.Reading
import FeatureGate.Proofs.Records

/-!
# Rules survive their serialized form

Whatever is compiled or read is *regular*: its operators come from names and its numbers are finite.
A regular feature is read back from what it was written as, in whatever order the members of an
object are listed, with every scalar of its kind.
-/

namespace FeatureGate

/-! ## Values written alike -/

namespace Json

theorem Alike.refl (v : Json) : v.Alike v := alike_of_ordered_eq rfl

theorem alike_array_iff {v : Json} {ys : List Json} :
    v.Alike (.array ys) ↔ ∃ xs, v = .array xs ∧ List.Forall₂ Alike xs ys := by
  constructor
  · intro h
    cases h with
    | array length items =>
      refine ⟨_, rfl, List.forall₂_iff_get.mpr ⟨length, ?_⟩⟩
      intro i hx hy
      exact items i _ _ (List.getElem?_eq_getElem hx) (List.getElem?_eq_getElem hy)
  · rintro ⟨xs, rfl, each⟩
    obtain ⟨length, items⟩ := List.forall₂_iff_get.mp each
    refine .array length ?_
    intro i x y hx hy
    obtain ⟨within, rfl⟩ := List.getElem?_eq_some_iff.mp hx
    obtain ⟨within', rfl⟩ := List.getElem?_eq_some_iff.mp hy
    exact items i within within'

/-- What is alike has alike members, if no key is repeated. -/
theorem Alike.member? {v w : Json} (h : v.Alike w) (hv : v.KeysOnce) (hw : w.KeysOnce)
    (key : String) : Option.Rel Alike (v.member? key) (w.member? key) := by
  cases h with
  | object keys values =>
    rename_i xs ys
    cases hv with
    | object _ distinctX =>
      cases hw with
      | object _ distinctY =>
        have both := keys key
        have values := values key
        simp only [KeyMap.contains, KeyMap.get?_ofList, KeyMap.findEntry_reverse distinctX,
          KeyMap.findEntry_reverse distinctY] at both values
        simp only [Json.member?]
        cases hx : findEntry key xs with
        | none =>
          cases hy : findEntry key ys with
          | none => exact .none
          | some y => simp [hx, hy] at both
        | some x =>
          cases hy : findEntry key ys with
          | none => simp [hx, hy] at both
          | some y => exact .some (values x y hx hy)
  | _ => exact .none

theorem Alike.exists_member {v w y : Json} {key : String} (h : v.Alike w) (hv : v.KeysOnce)
    (hw : w.KeysOnce) (written : w.member? key = some y) :
    ∃ x, v.member? key = some x ∧ x.Alike y := by
  have found := h.member? hv hw key
  rw [written] at found
  cases h : v.member? key with
  | none =>
    rw [h] at found
    cases found
  | some x =>
    rw [h] at found
    cases found with
    | some alike => exact ⟨x, rfl, alike⟩

theorem Alike.member?_string {v w : Json} {key s : String} (h : v.Alike w) (hv : v.KeysOnce)
    (hw : w.KeysOnce) (written : w.member? key = some (.string s)) :
    v.member? key = some (.string s) := by
  obtain ⟨x, found, alike⟩ := h.exists_member hv hw written
  cases alike
  exact found

theorem Alike.member?_array {v w : Json} {key : String} {ys : List Json} (h : v.Alike w)
    (hv : v.KeysOnce) (hw : w.KeysOnce) (written : w.member? key = some (.array ys)) :
    ∃ xs, v.member? key = some (.array xs) ∧ List.Forall₂ Alike xs ys := by
  obtain ⟨x, found, alike⟩ := h.exists_member hv hw written
  obtain ⟨xs, rfl, each⟩ := alike_array_iff.mp alike
  exact ⟨xs, found, each⟩

theorem Alike.isObject {v w : Json} (h : v.Alike w) : v.isObject = w.isObject := by
  cases h <;> rfl

/-- A list is read back if its items are. -/
theorem readBack_items {α : Type} {read : Tree → Option α} {write : α → Json} {as : List α}
    (back : ∀ a ∈ as, ∀ v, v.KeysOnce → v.Alike (write a) → read (.ofJson v) = some a)
    {vs : List Json} (once : ∀ v ∈ vs, v.KeysOnce) (h : List.Forall₂ Alike vs (as.map write)) :
    List.Forall₂ (fun v a => read (.ofJson v) = some a) vs as := by
  induction as generalizing vs with
  | nil =>
    cases h
    exact .nil
  | cons a as ih =>
    obtain ⟨backA, back⟩ := List.forall_mem_cons.mp back
    cases h with
    | cons head tail =>
      obtain ⟨onceV, once⟩ := List.forall_mem_cons.mp once
      exact .cons (backA _ onceV head) (ih back once tail)

end Json

/-! ## Regular rules -/

namespace Operator

/-- An operator that comes from a name. -/
def Regular (op : Operator) : Prop := ofName op.name = op

theorem regular_ofName (name : String) : (ofName name).Regular := by
  unfold Regular ofName
  by_cases equal : name = "equal"
  · simp [equal, Operator.name]
  by_cases notEqual : name = "not_equal"
  · simp [notEqual, Operator.name]
  by_cases isIn : name = "in"
  · simp [isIn, Operator.name]
  by_cases notIn : name = "not_in"
  · simp [notIn, Operator.name]
  · simp [equal, notEqual, isIn, notIn, Operator.name]

end Operator

/-- A number that is neither infinite nor none at all. -/
def Binary64.IsFinite (x : Binary64) : Prop := ∃ y, x = .finite y

theorem Json.Tree.isFinite_toBinary64 {t : Json.Tree} {x : Binary64} (h : t.toBinary64? = some x) :
    x.IsFinite := by
  cases t with
  | number =>
    obtain ⟨n, -, rfl⟩ := Option.map_eq_some_iff.mp h
    exact n.exists_finite
  | null | bool | text | array | object => cases h

/-- The items of a list are read one by one. -/
theorem Json.Tree.forall₂_of_listOf {α : Type} {read : Json.Tree → Option α} {t : Json.Tree}
    {as : List α} (h : t.listOf? read = some as) :
    ∃ ts, List.Forall₂ (fun t a => read t = some a) ts as := by
  cases t with
  | array items => exact ⟨items, mapM_eq_some_iff.mp h⟩
  | _ => cases h
namespace Scalar

def Regular : Scalar → Prop
  | .float x => x.IsFinite
  | _ => True

theorem regular_ofJson {v : Json} {s : Scalar} (h : ofJson? v = some s) : s.Regular := by
  cases v with
  | bool | string =>
    obtain rfl := Option.some.inj h
    trivial
  | number n =>
    obtain rfl := Option.some.inj h
    cases n with
    | float x => exact ⟨x, rfl⟩
    | int n inRange =>
      rw [ofNumber]
      split
      · trivial
      · exact Json.Number.exists_finite (.int n inRange)
  | null | array | object => cases h

theorem regular_ofTree {t : Json.Tree} {s : Scalar} (h : ofTree? t = some s) : s.Regular := by
  simp only [ofTree?, Option.orElse_eq_some, Option.map_eq_some_iff] at h
  rcases h with ⟨b, -, rfl⟩ | ⟨-, ⟨n, -, rfl⟩ | ⟨-, ⟨x, read, rfl⟩ | ⟨-, s, -, rfl⟩⟩⟩
  · trivial
  · trivial
  · exact t.isFinite_toBinary64 read
  · trivial

end Scalar

/-- What holds of everything that a traversal gives. -/
theorem forall_mem_of_forall₂ {α β : Type} {r : α → β → Prop} {p : β → Prop} {as : List α}
    {bs : List β} (h : List.Forall₂ r as bs) (step : ∀ a b, r a b → p b) : ∀ b ∈ bs, p b := by
  induction h with
  | nil => nofun
  | cons head _ ih => exact List.forall_mem_cons.mpr ⟨step _ _ head, ih⟩

namespace Comparand

def Regular : Comparand → Prop
  | .scalar s => s.Regular
  | .list items => ∀ s ∈ items, s.Regular

theorem regular_ofJson {v : Json} {c : Comparand} (h : ofJson v = .ok c) : c.Regular := by
  rcases ofJson_cases h with ⟨s, hs, rfl⟩ | ⟨vs, ss, -, rfl, items⟩
  · exact Scalar.regular_ofJson hs
  · exact forall_mem_of_forall₂ items fun _ _ => Scalar.regular_ofJson

theorem regular_ofTree {t : Json.Tree} {c : Comparand} (h : ofTree? t = some c) : c.Regular := by
  rcases ofTree?_eq_some_iff.mp h with ⟨s, read, rfl⟩ | ⟨-, ss, read, rfl⟩
  · exact Scalar.regular_ofTree read
  · obtain ⟨ts, each⟩ := Json.Tree.forall₂_of_listOf read
    exact forall_mem_of_forall₂ each fun _ _ => Scalar.regular_ofTree

end Comparand

/-- The operator comes from a name, and all numbers are finite. -/
structure Condition.Regular (c : Condition) : Prop where
  op : c.op.Regular
  value : c.value.Regular

structure Segment.Regular (s : Segment) : Prop where
  conditions : ∀ c ∈ s.conditions, c.Regular
  rollout : ∀ r, s.rollout = some r → r.IsFinite

def Feature.Regular (f : Feature) : Prop := ∀ s ∈ f.segments, s.Regular

/-! ### What is compiled or read -/

/-- How features come about. -/
inductive Feature.Made : Feature → Prop
  | compiled {name : String} {config : Json} {f : Feature}
      (h : (compile name config).outcome = .ok f) : Made f
  | read {t : Json.Tree} {f : Feature} (h : ofTree? t = some f) : Made f

namespace Condition

theorem regular_compile {config : Json} {c : Condition} (h : (compile config).outcome = .ok c) :
    c.Regular := by
  obtain ⟨op, value, -, sameOp, accepted⟩ := compile_eq_ok_iff.mp h
  exact ⟨sameOp ▸ Operator.regular_ofName op, Comparand.regular_ofJson accepted⟩

theorem regular_ofTree {t : Json.Tree} {c : Condition} (h : ofTree? t = some c) : c.Regular := by
  unfold ofTree? at h
  split at h
  · simp only [Operator.ofTree?, Option.bind_eq_bind, Option.bind_eq_some_iff,
      Option.map_eq_some_iff] at h
    obtain ⟨_, -, _, ⟨op, -, rfl⟩, value, read, same⟩ := h
    obtain rfl := Option.some.inj same
    exact ⟨Operator.regular_ofName op, Comparand.regular_ofTree read⟩
  · cases h

end Condition

theorem regular_rolloutOfTree {t : Option Json.Tree} {rollout : Option Binary64}
    (h : rolloutOfTree? t = some rollout) : ∀ r, rollout = some r → r.IsFinite := by
  unfold rolloutOfTree? at h
  split at h
  · obtain rfl := Option.some.inj h
    nofun
  · obtain rfl := Option.some.inj h
    nofun
  · obtain ⟨x, read, rfl⟩ := Option.map_eq_some_iff.mp h
    rintro _ ⟨⟩
    exact Json.Tree.isFinite_toBinary64 read

namespace Segment

theorem regular_compile {config : Json} {s : Segment} (h : (compile config).outcome = .ok s) :
    s.Regular := by
  obtain ⟨conditions, rollout, number, same, -⟩ := compile_eq_ok h
  refine ⟨forall_mem_of_forall₂ (Condition.forall₂_of_compileAll conditions) fun _ _ =>
    Condition.regular_compile, ?_⟩
  rw [same]
  rintro _ ⟨⟩
  rcases Config.number?_eq_ok number with ⟨-, rfl⟩ | ⟨n, -, rfl⟩
  · exact ⟨_, rfl⟩
  · exact n.exists_finite

theorem regular_ofTree {t : Json.Tree} {s : Segment} (h : ofTree? t = some s) : s.Regular := by
  unfold ofTree? at h
  split at h
  · simp only [Option.bind_eq_bind, Option.bind_eq_some_iff] at h
    obtain ⟨name, -, conditions, items, rollout, read, same⟩ := h
    obtain rfl := Option.some.inj same
    obtain ⟨ts, each⟩ := Json.Tree.forall₂_of_listOf items
    exact ⟨forall_mem_of_forall₂ each fun _ _ => Condition.regular_ofTree,
      regular_rolloutOfTree read⟩
  · cases h

end Segment

theorem Feature.regular_ofTree {t : Json.Tree} {f : Feature} (h : ofTree? t = some f) :
    f.Regular := by
  unfold ofTree? at h
  split at h
  · simp only [Option.bind_eq_bind, Option.bind_eq_some_iff] at h
    obtain ⟨name, -, segments, items, same⟩ := h
    obtain rfl := Option.some.inj same
    obtain ⟨ts, each⟩ := Json.Tree.forall₂_of_listOf items
    exact forall_mem_of_forall₂ each fun _ _ => Segment.regular_ofTree
  · cases h

theorem Feature.Made.regular {f : Feature} (h : f.Made) : f.Regular := by
  cases h with
  | compiled h =>
    exact forall_mem_of_forall₂ (Segment.forall₂_of_compileAll (compile_eq_ok h)) fun _ _ =>
      Segment.regular_compile
  | read h => exact regular_ofTree h

/-! ## Written and read back -/

namespace Scalar

/-- A scalar is written as a value that is no object and no list. -/
theorem toJson_cases (s : Scalar) :
    s.toJson = .null ∨ (∃ b, s.toJson = .bool b) ∨ (∃ n, s.toJson = .number n) ∨
      ∃ t, s.toJson = .string t := by
  cases s with
  | bool b => exact .inr (.inl ⟨b, rfl⟩)
  | int n =>
    simp only [toJson]
    cases Json.Number.ofInt? n.toInt with
    | none => exact .inl rfl
    | some n => exact .inr (.inr (.inl ⟨n, rfl⟩))
  | float x =>
    cases x with
    | nan | infinity => exact .inl rfl
    | finite x => exact .inr (.inr (.inl ⟨_, rfl⟩))
  | text t => exact .inr (.inr (.inr ⟨t, rfl⟩))

theorem keysOnce_toJson (s : Scalar) : s.toJson.KeysOnce := by
  rcases s.toJson_cases with h | ⟨_, h⟩ | ⟨_, h⟩ | ⟨_, h⟩
  all_goals rw [h]; constructor

theorem eq_toJson_of_alike {s : Scalar} {v : Json} (h : v.Alike s.toJson) : v = s.toJson := by
  rcases s.toJson_cases with written | ⟨_, written⟩ | ⟨_, written⟩ | ⟨_, written⟩
  all_goals
    rw [written] at h ⊢
    cases h
    rfl

theorem ofJson?_toJson {s : Scalar} (h : s.Regular) : ofJson? s.toJson = some s := by
  cases s with
  | bool | text => rfl
  | int n =>
    have low := n.le_toInt
    have high := n.toInt_lt
    have inRange : -2 ^ 63 ≤ n.toInt ∧ n.toInt < 2 ^ 64 := by omega
    simp only [toJson, Json.Number.ofInt?, dif_pos inRange, Option.elim, ofJson?, ofNumber,
      if_pos high, Int64.ofInt_toInt]
  | float x =>
    obtain ⟨y, rfl⟩ := h
    rfl

end Scalar

namespace Comparand

theorem toJson_list (items : List Scalar) :
    (list items).toJson = .array (items.map Scalar.toJson) := rfl

theorem keysOnce_toJson (c : Comparand) : c.toJson.KeysOnce := by
  cases c with
  | scalar s => exact s.keysOnce_toJson
  | list items =>
    refine .array _ ?_
    simp only [List.forall_mem_map]
    exact fun s _ => s.keysOnce_toJson

theorem eq_toJson_of_alike {c : Comparand} {v : Json} (h : v.Alike c.toJson) : v = c.toJson := by
  cases c with
  | scalar s => exact Scalar.eq_toJson_of_alike h
  | list items =>
    obtain ⟨vs, rfl, each⟩ := Json.alike_array_iff.mp h
    rw [List.forall₂_map_right_iff] at each
    have same := each.imp fun _ _ => Scalar.eq_toJson_of_alike
    rw [← List.forall₂_map_right_iff, List.forall₂_eq_eq_eq] at same
    rw [toJson_list, same]

theorem ofJson_toJson {c : Comparand} (h : c.Regular) : ofJson c.toJson = .ok c := by
  cases c with
  | scalar s =>
    have read := Scalar.ofJson?_toJson h
    change ofJson s.toJson = .ok (.scalar s)
    rcases s.toJson_cases with written | ⟨_, written⟩ | ⟨_, written⟩ | ⟨_, written⟩
    all_goals
      rw [written] at read ⊢
      simp only [ofJson, read]
  | list items =>
    have each : scalarsOfItems (items.map Scalar.toJson) = .ok items := by
      rw [scalarsOfItems_eq_ok_iff, List.forall₂_map_left_iff, List.forall₂_same]
      exact fun s hs => Scalar.ofJson?_toJson (h s hs)
    rw [toJson_list, ofJson, each]
    rfl

end Comparand

namespace Condition

theorem keysOnce_toJson (c : Condition) : c.toJson.KeysOnce := by
  refine .object _ (by simp) ?_
  simp only [List.forall_mem_cons]
  exact ⟨.string _, .string _, c.value.keysOnce_toJson, nofun⟩

theorem readBack {c : Condition} (h : c.Regular) (v : Json) (once : v.KeysOnce)
    (same : v.Alike c.toJson) : ofTree? (.ofJson v) = some c := by
  have written := c.keysOnce_toJson
  have hasProperty : c.toJson.member? "property" = some (.string c.property) := rfl
  have hasOp : c.toJson.member? "op" = some (.string c.op.name) := rfl
  have hasValue : c.toJson.member? "value" = some c.value.toJson := rfl
  have property := same.member?_string once written hasProperty
  have op := same.member?_string once written hasOp
  obtain ⟨w, value, alike⟩ := same.exists_member once written hasValue
  obtain rfl := Comparand.eq_toJson_of_alike alike
  exact (ofTree?_ofJson once same.isObject).mpr
    ⟨c.op.name, c.value.toJson, property, op, value, h.op.symm, Comparand.ofJson_toJson h.value⟩

end Condition

namespace Segment

theorem keysOnce_toJson (s : Segment) : s.toJson.KeysOnce := by
  refine .object _ (by simp) ?_
  simp only [List.forall_mem_cons]
  refine ⟨.string _, .array _ ?_, ?_, nofun⟩
  · simp only [List.forall_mem_map]
    exact fun c _ => c.keysOnce_toJson
  · cases s.rollout with
    | none => exact .null
    | some r => cases r <;> constructor

theorem rollout_readBack {s : Segment} (h : s.Regular) {v : Json}
    (same : v.Alike (s.rollout.elim .null .ofBinary64)) :
    rolloutOfTree? (some (.ofJson v)) = some s.rollout := by
  cases rollout : s.rollout with
  | none =>
    rw [rollout] at same
    cases same
    rfl
  | some r =>
    obtain ⟨x, rfl⟩ := h.rollout r rollout
    rw [rollout] at same
    cases same
    rfl

theorem readBack {s : Segment} (h : s.Regular) (v : Json) (once : v.KeysOnce)
    (same : v.Alike s.toJson) : ofTree? (.ofJson v) = some s := by
  have written := s.keysOnce_toJson
  have hasName : s.toJson.member? "name" = some (.string s.name) := rfl
  have hasConditions : s.toJson.member? "conditions" =
      some (.array (s.conditions.map Condition.toJson)) := rfl
  have hasRollout : s.toJson.member? "rollout" = some (s.rollout.elim .null .ofBinary64) := rfl
  have name := same.member?_string once written hasName
  obtain ⟨ds, conditions, each⟩ := same.member?_array once written hasConditions
  obtain ⟨r, rollout, alike⟩ := same.exists_member once written hasRollout
  have back := Json.readBack_items (fun c hc => Condition.readBack (h.conditions c hc))
    (once.member? conditions).items each
  refine (ofTree?_ofJson once same.isObject).mpr ⟨name, ⟨ds, conditions, back⟩, ?_⟩
  rw [rollout]
  exact rollout_readBack h alike

end Segment

namespace Feature

theorem keysOnce_toJson (f : Feature) : f.toJson.KeysOnce := by
  refine .object _ (by simp) ?_
  simp only [List.forall_mem_cons]
  refine ⟨.string _, .array _ ?_, nofun⟩
  simp only [List.forall_mem_map]
  exact fun s _ => s.keysOnce_toJson

theorem readBack {f : Feature} (h : f.Regular) (v : Json) (once : v.KeysOnce)
    (same : v.Alike f.toJson) : ofTree? (.ofJson v) = some f := by
  have written := f.keysOnce_toJson
  have hasName : f.toJson.member? "name" = some (.string f.name) := rfl
  have hasSegments : f.toJson.member? "segments" =
      some (.array (f.segments.map Segment.toJson)) := rfl
  have name := same.member?_string once written hasName
  obtain ⟨ss, segments, each⟩ := same.member?_array once written hasSegments
  have back := Json.readBack_items (fun s hs => Segment.readBack (h s hs))
    (once.member? segments).items each
  exact (ofTree?_ofJson once same.isObject).mpr ⟨name, ss, segments, back⟩

end Feature

/-! ## Equal to itself -/

/-- A comparison of lists item by item finds a list equal to itself if its items are. -/
theorem sameList_self {α : Type} (same : α → α → Bool) (sameList : List α → List α → Bool)
    (nil : sameList [] [] = true)
    (cons : ∀ a as b bs, sameList (a :: as) (b :: bs) = (same a b && sameList as bs))
    {as : List α} (h : ∀ a ∈ as, same a a = true) : sameList as as = true := by
  induction as with
  | nil => exact nil
  | cons a as ih =>
    obtain ⟨first, rest⟩ := List.forall_mem_cons.mp h
    rw [cons, first, ih rest, Bool.and_self]

/-- A finite number is equal to itself. -/
theorem Binary64.IsFinite.same_self {x : Binary64} (h : x.IsFinite) : x.same x = true := by
  obtain ⟨y, rfl⟩ := h
  exact y.same_iff.mpr rfl

namespace Scalar

theorem Regular.same_self {s : Scalar} (h : s.Regular) : s.same s = true := by
  cases s with
  | bool | int | text => exact beq_self_eq_true _
  | float x => exact Binary64.IsFinite.same_self h

end Scalar

namespace Comparand

theorem sameItems_self {items : List Scalar} (h : ∀ s ∈ items, s.Regular) :
    sameItems items items = true :=
  sameList_self Scalar.same sameItems rfl (fun _ _ _ _ => rfl) fun s hs => (h s hs).same_self

theorem Regular.same_self {c : Comparand} (h : c.Regular) : c.same c = true := by
  cases c with
  | scalar s => exact Scalar.Regular.same_self h
  | list items => exact sameItems_self h

end Comparand

theorem Condition.Regular.same_self {c : Condition} (h : c.Regular) : c.same c = true := by
  rw [Condition.same, h.value.same_self, beq_self_eq_true, beq_self_eq_true, Bool.and_self,
    Bool.and_self]

theorem sameRollout_self {rollout : Option Binary64} (h : ∀ r, rollout = some r → r.IsFinite) :
    sameRollout rollout rollout = true := by
  cases rollout with
  | none => rfl
  | some r => exact (h r rfl).same_self

theorem sameConditions_self {cs : List Condition} (h : ∀ c ∈ cs, c.Regular) :
    sameConditions cs cs = true :=
  sameList_self Condition.same sameConditions rfl (fun _ _ _ _ => rfl) fun c hc =>
    (h c hc).same_self

theorem Segment.Regular.same_self {s : Segment} (h : s.Regular) : s.same s = true := by
  rw [Segment.same, sameConditions_self h.conditions, sameRollout_self h.rollout,
    beq_self_eq_true, Bool.and_self, Bool.and_self]

namespace Feature

theorem sameSegments_self {ss : List Segment} (h : ∀ s ∈ ss, s.Regular) :
    sameSegments ss ss = true :=
  sameList_self Segment.same sameSegments rfl (fun _ _ _ _ => rfl) fun s hs => (h s hs).same_self

theorem Regular.same_self {f : Feature} (h : f.Regular) : f.same f = true := by
  rw [same, sameSegments_self h, beq_self_eq_true, Bool.and_self]

/-- Everything that is compiled or read is regular. What a regular feature is written as is read
back as that very feature, also with the members of the objects in any other order, and the feature
equals itself. -/
theorem survives_serialization :
    (∀ f : Feature, f.Made → f.Regular) ∧
      ∀ f : Feature, f.Regular →
        ofTree? (.ofJson f.toJson) = some f ∧
        (∀ v : Json, v.KeysOnce → v.Alike f.toJson → ofTree? (.ofJson v) = some f) ∧
        f.same f = true := by
  refine ⟨fun _ made => made.regular, ?_⟩
  intro f regular
  exact ⟨readBack regular f.toJson f.keysOnce_toJson (.refl _), readBack regular,
    regular.same_self⟩

/-- Scalars of all kinds, a whole number that is no integer and a text of digits among them, with
and without a rollout, under an operator of an unknown name and a known one. -/
def assorted : Feature :=
  ⟨"f", [
    ⟨"open", [⟨"p", .unknown "gt", .list [.bool true, .int (-2 ^ 63),
      .float (.finite .one), .text "1"]⟩], none⟩,
    ⟨"zero", [⟨"q", .notIn, .scalar (.float (.finite (.zero true)))⟩], some .zero⟩]⟩

theorem regular_assorted : assorted.Regular := by
  refine List.forall_mem_cons.mpr ⟨⟨?_, ?_⟩, List.forall_mem_singleton.mpr ⟨?_, ?_⟩⟩
  · refine List.forall_mem_singleton.mpr ⟨rfl, ?_⟩
    simp [Comparand.Regular, Scalar.Regular, Binary64.IsFinite]
  · rintro _ ⟨⟩
  · exact List.forall_mem_singleton.mpr ⟨rfl, _, rfl⟩
  · intro r found
    exact ⟨_, (Option.some.inj found).symm⟩

theorem survives_serialization_assorted :
    assorted.Made ∧ assorted.Regular ∧ assorted.toJson.KeysOnce ∧
      ofTree? (.ofJson assorted.toJson) = some assorted := by
  have back := (survives_serialization.2 assorted regular_assorted).2.1 assorted.toJson
    assorted.keysOnce_toJson (.refl _)
  exact ⟨.read back, survives_serialization.1 assorted (.read back), assorted.keysOnce_toJson, back⟩

end Feature

end FeatureGate
