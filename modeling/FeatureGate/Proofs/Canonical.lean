import FeatureGate.Context.Basic
import FeatureGate.Proofs.Decoding

/-!
# What the canonical text tells

Two attribute maps have the same canonical text exactly if they are alike: the same keys, and alike
values under each. The order of the members of an object is erased at every depth, and nothing else
is. So contexts that are not alike share an identity only if two different byte strings have digests
that begin with the same sixteen bytes.
-/

namespace FeatureGate

namespace Json

/-- Whether two values are structurally the same: numbers are one and the same number, lists agree
item by item, and objects agree as maps. -/
inductive Alike : Json → Json → Prop
  | null : Alike .null .null
  | bool (b : Bool) : Alike (.bool b) (.bool b)
  | number (n : Number) : Alike (.number n) (.number n)
  | string (s : String) : Alike (.string s) (.string s)
  | array {xs ys : List Json} (length : xs.length = ys.length)
      (items : ∀ (i : Nat) x y, xs[i]? = some x → ys[i]? = some y → Alike x y) :
      Alike (.array xs) (.array ys)
  | object {xs ys : List (String × Json)}
      (keys : ∀ key, (KeyMap.ofList xs).contains key = (KeyMap.ofList ys).contains key)
      (values : ∀ key x y, (KeyMap.ofList xs).get? key = some x →
        (KeyMap.ofList ys).get? key = some y → Alike x y) :
      Alike (.object xs) (.object ys)

/-! ## The members in order -/

theorem orderedItems_eq (items : List Json) : orderedItems items = items.map ordered := by
  induction items with
  | nil => rfl
  | cons v vs ih => rw [orderedItems, ih, List.map_cons]

theorem orderedMembers_eq (members : List (String × Json)) :
    orderedMembers members = members.map fun m => (m.1, ordered m.2) := by
  induction members with
  | nil => rfl
  | cons m ms ih => rw [orderedMembers, ih, List.map_cons]

/-- The object that a list of members is ordered to. -/
def orderedMap (members : List (String × Json)) : KeyMap Json := .ofList (orderedMembers members)

theorem ordered_object (members : List (String × Json)) :
    ordered (.object members) = .object (orderedMap members).entries := by
  rw [ordered, ofMembers_eq, ofKeyMap, orderedMap]

theorem get?_orderedMap (members : List (String × Json)) (key : String) :
    (orderedMap members).get? key = ((KeyMap.ofList members).get? key).map ordered := by
  rw [orderedMap, orderedMembers_eq, KeyMap.get?_ofList, KeyMap.get?_ofList, ← List.map_reverse,
    KeyMap.findEntry_map]

theorem ordered_object_eq_iff {xs ys : List (String × Json)} :
    ordered (.object xs) = ordered (.object ys) ↔
      ∀ key, ((KeyMap.ofList xs).get? key).map ordered =
        ((KeyMap.ofList ys).get? key).map ordered := by
  rw [ordered_object, ordered_object, Json.object.injEq]
  constructor
  · intro same key
    rw [← get?_orderedMap, ← get?_orderedMap, KeyMap.get?, KeyMap.get?, same]
  · intro same
    have maps : orderedMap xs = orderedMap ys := by
      apply KeyMap.ext_get?
      intro key
      rw [get?_orderedMap, get?_orderedMap, same]
    rw [maps]

/-! ## Order is erased and nothing else -/

theorem ordered_eq_of_alike {v w : Json} (h : v.Alike w) : ordered v = ordered w := by
  induction h with
  | null | bool | number | string => rfl
  | array length items ih =>
    rename_i xs ys
    rw [ordered, ordered, orderedItems_eq, orderedItems_eq, Json.array.injEq]
    apply List.ext_getElem?
    intro i
    rw [List.getElem?_map, List.getElem?_map]
    cases hx : xs[i]? with
    | none =>
      have beyond : ys.length ≤ i := length ▸ List.getElem?_eq_none_iff.mp hx
      rw [List.getElem?_eq_none beyond]
    | some x =>
      have within : i < ys.length := length ▸ (List.getElem?_eq_some_iff.mp hx).1
      rw [List.getElem?_eq_getElem within, Option.map_some, Option.map_some,
        ih i x _ hx (List.getElem?_eq_getElem within)]
  | object keys values ih =>
    rename_i xs ys
    rw [ordered_object_eq_iff]
    intro key
    have both := keys key
    rw [KeyMap.contains, KeyMap.contains] at both
    cases hx : (KeyMap.ofList xs).get? key with
    | none =>
      cases hy : (KeyMap.ofList ys).get? key with
      | none => rfl
      | some y => simp [hx, hy] at both
    | some x =>
      cases hy : (KeyMap.ofList ys).get? key with
      | none => simp [hx, hy] at both
      | some y => rw [Option.map_some, Option.map_some, ih key x y hx hy]

theorem alike_of_ordered_eq {v w : Json} (h : ordered v = ordered w) : v.Alike w := by
  induction v using Json.induction generalizing w with
  | null =>
    cases w with
    | null => exact .null
    | _ => simp [ordered, ofMembers] at h
  | bool b =>
    cases w with
    | bool c =>
      obtain rfl := Json.bool.inj h
      exact .bool b
    | _ => simp [ordered, ofMembers] at h
  | number n =>
    cases w with
    | number m =>
      obtain rfl := Json.number.inj h
      exact .number n
    | _ => simp [ordered, ofMembers] at h
  | string s =>
    cases w with
    | string t =>
      obtain rfl := Json.string.inj h
      exact .string s
    | _ => simp [ordered, ofMembers] at h
  | array xs ih =>
    cases w with
    | array ys =>
      rw [ordered, ordered, orderedItems_eq, orderedItems_eq, Json.array.injEq] at h
      refine .array (by simpa using congrArg List.length h) ?_
      intro i x y hx hy
      have item := congrArg (·[i]?) h
      simp only [List.getElem?_map, hx, hy, Option.map_some, Option.some.injEq] at item
      exact ih x (List.mem_of_getElem? hx) item
    | _ => simp [ordered, ofMembers] at h
  | object xs ih =>
    cases w with
    | object ys =>
      rw [ordered_object_eq_iff] at h
      constructor
      · intro key
        have found := congrArg Option.isSome (h key)
        rwa [Option.isSome_map, Option.isSome_map] at found
      · intro key x y hx hy
        have value := h key
        rw [hx, hy, Option.map_some, Option.map_some, Option.some.injEq] at value
        rw [KeyMap.get?_ofList] at hx
        exact ih (key, x) (List.mem_reverse.mp (KeyMap.mem_of_findEntry hx)) value
    | _ => simp [ordered, ofMembers] at h

/-- Values have the same text with all members in order exactly if they are alike. -/
theorem render_ordered_eq_iff {v w : Json} :
    (ordered v).render = (ordered w).render ↔ v.Alike w :=
  ⟨fun h => alike_of_ordered_eq (render_injective h), fun h => by rw [ordered_eq_of_alike h]⟩

end Json

/-- Whether two attribute maps have the same keys, and alike values under each. -/
structure AlikeAttributes (a b : KeyMap Json) : Prop where
  keys : ∀ key, a.contains key = b.contains key
  values : ∀ key v w, a.get? key = some v → b.get? key = some w → v.Alike w

theorem alike_ofKeyMap_iff {a b : KeyMap Json} :
    (Json.ofKeyMap a).Alike (.ofKeyMap b) ↔ AlikeAttributes a b := by
  constructor
  · intro h
    cases h with
    | object keys values =>
      rw [KeyMap.ofList_entries, KeyMap.ofList_entries] at values
      simp only [KeyMap.ofList_entries] at keys
      exact ⟨keys, values⟩
  · rintro ⟨keys, values⟩
    apply Json.Alike.object
    · simpa only [KeyMap.ofList_entries] using keys
    · simpa only [KeyMap.ofList_entries] using values

/-! ## Identities -/

theorem toList_loop (bytes : ByteArray) (i : Nat) (r : List UInt8) :
    ByteArray.toList.loop bytes i r = r.reverse ++ bytes.data.toList.drop i := by
  fun_induction ByteArray.toList.loop bytes i r with
  | case1 i r less ih =>
    have cons : bytes.data.toList.drop i = bytes.get! i :: bytes.data.toList.drop (i + 1) := by
      have bound : i < bytes.data.toList.length := less
      rw [List.drop_eq_getElem_cons bound]
      exact congrArg (· :: _) (getElem!_pos bytes.data i bound).symm
    rw [ih, cons, List.reverse_cons, List.append_assoc, List.singleton_append]
  | case2 i r more =>
    have beyond : bytes.data.toList.length ≤ i := Nat.le_of_not_lt more
    rw [List.drop_eq_nil_of_le beyond, List.append_nil]

theorem utf8_injective {s t : String} (h : s.toUTF8.toList = t.toUTF8.toList) : s = t := by
  rw [ByteArray.toList, ByteArray.toList, toList_loop, toList_loop] at h
  simp only [List.reverse_nil, List.nil_append, List.drop_zero] at h
  exact String.toByteArray_inj.mp (ByteArray.ext (Array.ext' h))

/-- Whether two texts of different bytes have digests that begin with the same sixteen bytes. -/
def DigestsCollide (s t : String) : Prop :=
  s.toUTF8.toList ≠ t.toUTF8.toList ∧
    (Sha256.digest s.toUTF8.toList).take 16 = (Sha256.digest t.toUTF8.toList).take 16

theorem ofText_eq_iff_collide {s t : String} :
    ContextId.ofText s = ContextId.ofText t ↔ s = t ∨ DigestsCollide s t := by
  rw [ContextId.ofText_eq_ofText_iff]
  constructor
  · intro digests
    by_cases same : s = t
    · exact .inl same
    · exact .inr ⟨fun bytes => same (utf8_injective bytes), digests⟩
  · rintro (rfl | ⟨-, digests⟩)
    · rfl
    · exact digests

/-- The canonical text tells which attributes there are and nothing else, and so does the identity
up to collisions of digests. -/
theorem canonicalText_eq_iff_alike (a b : KeyMap Json) :
    (canonicalText a = canonicalText b ↔ AlikeAttributes a b) ∧
      (∀ v w : Json, v.ordered.render = w.ordered.render ↔ v.Alike w) ∧
      ((Context.ofAttributes a).identity = (Context.ofAttributes b).identity ↔
        AlikeAttributes a b ∨ DigestsCollide (canonicalText a) (canonicalText b)) := by
  have text : canonicalText a = canonicalText b ↔ AlikeAttributes a b :=
    Json.render_ordered_eq_iff.trans alike_ofKeyMap_iff
  have identity : (Context.ofAttributes a).identity = (Context.ofAttributes b).identity ↔
      canonicalText a = canonicalText b ∨ DigestsCollide (canonicalText a) (canonicalText b) :=
    ofText_eq_iff_collide
  exact ⟨text, fun _ _ => Json.render_ordered_eq_iff, identity.trans (or_congr_left text)⟩

end FeatureGate
