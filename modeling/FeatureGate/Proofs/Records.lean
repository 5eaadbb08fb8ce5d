import FeatureGate.Proofs.Comparison
import FeatureGate.Rule.Serialized

/-!
# Reading rules from values

A value is read as the tree of its own parts. If no object in it repeats a key, a record is read from
an object by its keys, in whatever order they are listed, and a list from an array item by item. So
each kind of rule is characterized by the members that it is read from.
-/

namespace FeatureGate

/-- A traversal gives what the items give, one by one. -/
theorem mapM_eq_some_iff {α β : Type} {f : α → Option β} {as : List α} {bs : List β} :
    as.mapM f = some bs ↔ List.Forall₂ (fun a b => f a = some b) as bs := by
  induction as generalizing bs with
  | nil => simp [eq_comm]
  | cons a as ih =>
    rw [List.mapM_cons]
    cases first : f a with
    | none => cases bs <;> simp [first]
    | some b =>
      cases rest : as.mapM f with
      | none => cases bs <;> simp [first, ← ih, rest]
      | some bs' => cases bs <;> simp [first, ← ih, rest]

namespace Json

/-- No object repeats a key, at any depth. -/
inductive KeysOnce : Json → Prop
  | null : KeysOnce .null
  | bool (b : Bool) : KeysOnce (.bool b)
  | number (n : Number) : KeysOnce (.number n)
  | string (s : String) : KeysOnce (.string s)
  | array (items : List Json) (each : ∀ v ∈ items, KeysOnce v) : KeysOnce (.array items)
  | object (members : List (String × Json)) (distinct : (members.map Prod.fst).Nodup)
      (each : ∀ m ∈ members, KeysOnce m.2) : KeysOnce (.object members)

theorem KeysOnce.items {vs : List Json} (h : (Json.array vs).KeysOnce) : ∀ v ∈ vs, v.KeysOnce := by
  cases h with
  | array _ each => exact each

theorem KeysOnce.member? {v w : Json} {key : String} (h : v.KeysOnce)
    (found : v.member? key = some w) : w.KeysOnce := by
  cases h with
  | object members _ each => exact each _ (KeyMap.mem_of_findEntry found)
  | _ => cases found

theorem KeysOnce.ofMembers {members : List (String × Json)} (h : ∀ m ∈ members, m.2.KeysOnce) :
    (ofMembers members).KeysOnce := by
  rw [ofMembers_eq]
  refine .object _ (KeyMap.ofList members).nodup_keys ?_
  intro m hm
  have found := (KeyMap.findEntry_eq_some_iff (KeyMap.ofList members).nodup_keys).mpr hm
  rw [← KeyMap.get?, KeyMap.get?_ofList] at found
  exact h _ (List.mem_reverse.mp (KeyMap.mem_of_findEntry found))

namespace Tree

theorem ofItems_eq (items : List Json) : ofItems items = items.map ofJson := by
  induction items with
  | nil => rfl
  | cons v vs ih => rw [ofItems, ih, List.map_cons]

/-- The members of a key in the tree of an object: one at most. -/
theorem filter_ofMembers {members : List (String × Json)} (distinct : (members.map Prod.fst).Nodup)
    (key : String) :
    (ofMembers members).filter (fun m => m.1 = some key) =
      (findEntry key members).toList.map fun v => (some key, ofJson v) := by
  induction members with
  | nil => rfl
  | cons m ms ih =>
    obtain ⟨k, v⟩ := m
    obtain ⟨fresh, distinct⟩ := List.nodup_cons.mp distinct
    rw [ofMembers, findEntry]
    by_cases same : k = key
    · subst same
      have absent : findEntry k ms = none := by
        cases found : findEntry k ms with
        | none => rfl
        | some w => exact absurd (List.mem_map_of_mem (KeyMap.mem_of_findEntry found)) fresh
      simp [ih distinct, absent]
    · simp [ih distinct, same]

theorem memberOnce?_ofMembers {members : List (String × Json)}
    (distinct : (members.map Prod.fst).Nodup) (key : String) :
    memberOnce? (ofMembers members) key = some ((findEntry key members).map ofJson) := by
  rw [memberOnce?, filter_ofMembers distinct]
  cases findEntry key members <;> rfl

theorem isSome_keys_ofMembers (members : List (String × Json)) :
    (ofMembers members).all (·.1.isSome) = true := by
  induction members with
  | nil => rfl
  | cons m ms ih => rw [ofMembers, List.all_cons, ih]; rfl

theorem keysOnce_itemValues {room : Nat} (value : ∀ {t v}, value? room t = some v → v.KeysOnce)
    {items : List Tree} {vs : List Json} (h : itemValues? room items = some vs) :
    ∀ v ∈ vs, v.KeysOnce := by
  induction items generalizing vs with
  | nil =>
    obtain rfl := Option.some.inj h
    nofun
  | cons t ts ih =>
    simp only [itemValues?, Option.bind_eq_bind, Option.bind_eq_some_iff] at h
    obtain ⟨w, first, ws, rest, same⟩ := h
    obtain rfl := Option.some.inj same
    exact List.forall_mem_cons.mpr ⟨value first, ih rest⟩

theorem keysOnce_memberValues {room : Nat} (value : ∀ {t v}, value? room t = some v → v.KeysOnce)
    {members : List (Option String × Tree)} {ms : List (String × Json)}
    (h : memberValues? room members = some ms) : ∀ m ∈ ms, m.2.KeysOnce := by
  induction members generalizing ms with
  | nil =>
    obtain rfl := Option.some.inj h
    nofun
  | cons m rest ih =>
    simp only [memberValues?, Option.bind_eq_bind, Option.bind_eq_some_iff] at h
    obtain ⟨key, -, w, first, ws, later, same⟩ := h
    obtain rfl := Option.some.inj same
    exact List.forall_mem_cons.mpr ⟨value first, ih later⟩

theorem keysOnce_value {room : Nat} {t : Tree} {v : Json} (h : t.value? room = some v) :
    v.KeysOnce := by
  cases t with
  | null | bool =>
    obtain rfl := Option.some.inj h
    constructor
  | number | text =>
    obtain ⟨_, -, rfl⟩ := Option.map_eq_some_iff.mp h
    constructor
  | array items =>
    cases room with
    | zero => cases h
    | succ room =>
      obtain ⟨vs, values, rfl⟩ := Option.map_eq_some_iff.mp h
      exact .array vs (keysOnce_itemValues keysOnce_value values)
  | object members =>
    cases room with
    | zero => cases h
    | succ room =>
      obtain ⟨ms, values, rfl⟩ := Option.map_eq_some_iff.mp h
      exact .ofMembers (keysOnce_memberValues keysOnce_value values)
termination_by room

/-- A record is read from the members of an object. -/
theorem fields?_ofJson {v : Json} (once : v.KeysOnce) (mapping : v.isObject = true)
    (names : List String) :
    fields? names (ofJson v) = some (names.map fun name => (v.member? name).map ofJson) := by
  cases once with
  | object members distinct =>
    rw [ofJson, fields?, if_pos (isSome_keys_ofMembers members), mapM_eq_some_iff,
      List.forall₂_map_right_iff, List.forall₂_same]
    exact fun name _ => memberOnce?_ofMembers distinct name
  | _ => cases mapping

theorem toString?_ofJson {v : Json} {s : String} : (ofJson v).toString? = some s ↔ v = .string s := by
  cases v <;> simp [ofJson, toString?]

theorem listOf?_ofJson {α : Type} {read : Tree → Option α} {v : Json} {as : List α} :
    listOf? read (ofJson v) = some as ↔
      ∃ vs, v = .array vs ∧ List.Forall₂ (fun w a => read (ofJson w) = some a) vs as := by
  cases v with
  | array vs =>
    rw [ofJson, ofItems_eq, listOf?, mapM_eq_some_iff, List.forall₂_map_left_iff]
    simp
  | _ => simp [ofJson, listOf?]

end Tree

/-- A key that is repeated in a text keeps one value. -/
theorem keysOnce_parse {text : String} {v : Json} (h : parse? text = some v) : v.KeysOnce := by
  obtain ⟨t, -, value⟩ := Option.bind_eq_some_iff.mp h
  exact t.keysOnce_value value

end Json

open Json (Tree)

/-! ## Values -/

/-- A number is read as the integer it is, or as a binary64 number where that fails. -/
theorem Scalar.ofTree?_number (n : Json.Number) :
    Scalar.ofTree? (.number (some n)) = some (.ofNumber n) := by
  cases n with
  | float x => rfl
  | int n inRange =>
    rw [ofTree?, Tree.toInt64?, ofNumber]
    by_cases low : n < 2 ^ 63
    · rw [if_pos ⟨inRange.1, low⟩, if_pos low]
      rfl
    · rw [if_neg fun signed => low signed.2, if_neg low]
      rfl

/-- A scalar that is read from a value is the one that the value stands for in a config. -/
theorem Scalar.ofTree?_ofJson (v : Json) : Scalar.ofTree? (.ofJson v) = Scalar.ofJson? v := by
  cases v with
  | number n => exact ofTree?_number n
  | null | bool | string | array | object => rfl

namespace Comparand

theorem scalarsOfItems_eq_ok_iff {vs : List Json} {ss : List Scalar} :
    scalarsOfItems vs = .ok ss ↔ List.Forall₂ (fun v s => Scalar.ofJson? v = some s) vs ss := by
  refine ⟨forall₂_of_scalarsOfItems, ?_⟩
  intro items
  induction items with
  | nil => rfl
  | cons head _ ih => rw [scalarsOfItems, head, ih]; rfl

/-- A comparand is read as a scalar, or as a list where that fails. -/
theorem ofTree?_eq_some_iff {t : Tree} {c : Comparand} :
    ofTree? t = some c ↔
      (∃ s, Scalar.ofTree? t = some s ∧ c = .scalar s) ∨
        Scalar.ofTree? t = none ∧ ∃ ss, t.listOf? Scalar.ofTree? = some ss ∧ c = .list ss := by
  rw [ofTree?]
  cases Scalar.ofTree? t <;> simp [eq_comm]

/-- What is read from a value is what it compiles to. -/
theorem ofTree?_ofJson {v : Json} {c : Comparand} :
    Comparand.ofTree? (.ofJson v) = some c ↔ ofJson v = .ok c := by
  rw [ofTree?_eq_some_iff, Scalar.ofTree?_ofJson]
  cases v with
  | array vs =>
    have items : ∀ ss, Tree.listOf? Scalar.ofTree? (.ofJson (.array vs)) = some ss ↔
        scalarsOfItems vs = .ok ss := by
      intro ss
      rw [Tree.listOf?_ofJson, scalarsOfItems_eq_ok_iff]
      simp [Scalar.ofTree?_ofJson]
    simp only [items, Scalar.ofJson?, ofJson]
    cases scalarsOfItems vs <;> simp [Except.map, eq_comm]
  | bool | number | string => simp [Scalar.ofJson?, ofJson, eq_comm]
  | null | object => simp [Scalar.ofJson?, ofJson, Tree.ofJson, Tree.listOf?]

end Comparand

/-! ## Records -/

/-- What a condition is read from. -/
theorem Condition.ofTree?_ofJson {v : Json} (once : v.KeysOnce) (mapping : v.isObject = true)
    {c : Condition} :
    Condition.ofTree? (.ofJson v) = some c ↔
      ∃ op value, v.member? "property" = some (.string c.property) ∧
        v.member? "op" = some (.string op) ∧ v.member? "value" = some value ∧
        c.op = .ofName op ∧ Comparand.ofJson value = .ok c.value := by
  simp only [Condition.ofTree?, Tree.fields?_ofJson once mapping, List.map_cons, List.map_nil]
  cases v.member? "property" with
  | none => simp
  | some p =>
    cases v.member? "op" with
    | none => simp
    | some o =>
      cases v.member? "value" with
      | none => simp
      | some w =>
        simp only [Option.map_some, Operator.ofTree?, Option.bind_eq_bind, Option.bind_eq_some_iff,
          Option.map_eq_some_iff, Tree.toString?_ofJson, Comparand.ofTree?_ofJson,
          Option.some.injEq]
        constructor
        · rintro ⟨_, hp, _, ⟨op, ho, rfl⟩, _, hw, same⟩
          obtain rfl := Option.some.inj same
          exact ⟨op, w, hp, ho, rfl, rfl, hw⟩
        · rintro ⟨op, _, hp, ho, rfl, sameOp, hw⟩
          exact ⟨c.property, hp, c.op, ⟨op, ho, sameOp.symm⟩, c.value, hw, rfl⟩

/-- What a segment is read from. -/
theorem Segment.ofTree?_ofJson {v : Json} (once : v.KeysOnce) (mapping : v.isObject = true)
    {s : Segment} :
    Segment.ofTree? (.ofJson v) = some s ↔
      v.member? "name" = some (.string s.name) ∧
        (∃ ds, v.member? "conditions" = some (.array ds) ∧
          List.Forall₂ (fun d c => Condition.ofTree? (.ofJson d) = some c) ds s.conditions) ∧
        rolloutOfTree? ((v.member? "rollout").map .ofJson) = some s.rollout := by
  simp only [Segment.ofTree?, Tree.fields?_ofJson once mapping, List.map_cons, List.map_nil]
  cases v.member? "name" with
  | none => simp
  | some n =>
    cases v.member? "conditions" with
    | none => simp
    | some w =>
      simp only [Option.map_some, Option.bind_eq_bind, Option.bind_eq_some_iff,
        Tree.toString?_ofJson, Tree.listOf?_ofJson, Option.some.injEq]
      constructor
      · rintro ⟨_, hn, _, ⟨ds, hw, each⟩, _, rollout, same⟩
        obtain rfl := Option.some.inj same
        exact ⟨hn, ⟨ds, hw, each⟩, rollout⟩
      · rintro ⟨hn, items, rollout⟩
        exact ⟨s.name, hn, s.conditions, items, s.rollout, rollout, rfl⟩

/-- What a feature is read from. -/
theorem Feature.ofTree?_ofJson {v : Json} (once : v.KeysOnce) (mapping : v.isObject = true)
    {f : Feature} :
    Feature.ofTree? (.ofJson v) = some f ↔
      v.member? "name" = some (.string f.name) ∧
        ∃ ss, v.member? "segments" = some (.array ss) ∧
          List.Forall₂ (fun s segment => Segment.ofTree? (.ofJson s) = some segment) ss
            f.segments := by
  simp only [Feature.ofTree?, Tree.fields?_ofJson once mapping, List.map_cons, List.map_nil]
  cases v.member? "name" with
  | none => simp
  | some n =>
    cases v.member? "segments" with
    | none => simp
    | some w =>
      simp only [Option.map_some, Option.bind_eq_bind, Option.bind_eq_some_iff,
        Tree.toString?_ofJson, Tree.listOf?_ofJson, Option.some.injEq]
      constructor
      · rintro ⟨_, hn, _, items, same⟩
        obtain rfl := Option.some.inj same
        exact ⟨hn, items⟩
      · rintro ⟨hn, items⟩
        exact ⟨f.name, hn, f.segments, items, rfl⟩

end FeatureGate
