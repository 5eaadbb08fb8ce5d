import FeatureGate.Proofs.Canonical
import FeatureGate.Proofs.Comparison

/-!
# Equal contexts

Contexts are equal when their attributes are, and then they meet the same conditions. The equality
is numeric and takes the two zeros for one, while the canonical text has the sign of a zero. So
equal contexts share their identity, their bucket and all answers if their zeros have the same
signs, and else their identities are different, unless digests collide.
-/

namespace FeatureGate

/-! ## Kept identities -/

namespace Context

/-- The contexts that come about: of attributes, by adding an attribute, and by asking for the
identity, which is kept from then on. -/
inductive Built : Context → Prop
  | ofAttributes (attributes : KeyMap Json) : Built (.ofAttributes attributes)
  | insert {ctx : Context} (h : Built ctx) (key : String) (value : Json) :
      Built (ctx.insert key value)
  | identified {ctx : Context} (h : Built ctx) : Built ctx.identified

/-- A kept identity is that of the present attributes. -/
theorem Built.identity_eq {ctx : Context} (h : ctx.Built) :
    ctx.identity = .ofText ctx.canonical := by
  induction h with
  | ofAttributes | insert => rfl
  | identified _ ih => exact ih

end Context

/-! ## The signs of zeros -/

namespace Json

def Number.zeroSigns : Number → List Bool
  | .int .. => []
  | .float x => if x.mantissa = 0 then [x.negative] else []

mutual

/-- The signs of the binary64 zeros in a value, in their order. -/
def zeroSigns : Json → List Bool
  | .number n => n.zeroSigns
  | .array items => itemZeroSigns items
  | .object members => memberZeroSigns members
  | _ => []

def itemZeroSigns : List Json → List Bool
  | [] => []
  | v :: vs => zeroSigns v ++ itemZeroSigns vs

def memberZeroSigns : List (String × Json) → List Bool
  | [] => []
  | (_, v) :: ms => zeroSigns v ++ memberZeroSigns ms

end

/-- Whether values that are the same have equally many zeros, and are identical if these have the
same signs. -/
def FixedByZeros (v : Json) : Prop :=
  ∀ w, v.same w = true → v.zeroSigns.length = w.zeroSigns.length ∧
    (v.zeroSigns = w.zeroSigns → v = w)

theorem Number.fixedByZeros {m n : Number} (h : m.same n = true) :
    m.zeroSigns.length = n.zeroSigns.length ∧ (m.zeroSigns = n.zeroSigns → m = n) := by
  cases m with
  | int a _ =>
    cases n with
    | int b _ =>
      obtain rfl : a = b := beq_iff_eq.mp h
      exact ⟨rfl, fun _ => rfl⟩
    | float y => cases h
  | float x =>
    cases n with
    | int b _ => cases h
    | float y =>
      obtain ⟨nx, mx, ex, _⟩ := x
      obtain ⟨ny, my, ey, _⟩ := y
      simp only [same, Finite64.same, Bool.and_eq_true, Bool.or_eq_true, beq_iff_eq] at h
      obtain ⟨⟨rfl, rfl⟩, sign⟩ := h
      by_cases zero : mx = 0
      · simp [zeroSigns, zero]
      · obtain rfl := sign.resolve_right zero
        exact ⟨rfl, fun _ => rfl⟩

theorem items_fixedByZeros {xs : List Json} (each : ∀ v ∈ xs, v.FixedByZeros) {ys : List Json}
    (h : sameItems xs ys = true) : (itemZeroSigns xs).length = (itemZeroSigns ys).length ∧
      (itemZeroSigns xs = itemZeroSigns ys → xs = ys) := by
  induction xs generalizing ys with
  | nil =>
    cases ys with
    | nil => exact ⟨rfl, fun _ => rfl⟩
    | cons y ys => cases h
  | cons x xs ih =>
    cases ys with
    | nil => cases h
    | cons y ys =>
      rw [sameItems, Bool.and_eq_true] at h
      obtain ⟨count, first⟩ := each x List.mem_cons_self y h.1
      obtain ⟨counts, rest⟩ := ih (fun v hv => each v (List.mem_cons_of_mem x hv)) h.2
      constructor
      · rw [itemZeroSigns, itemZeroSigns, List.length_append, List.length_append, count, counts]
      · intro signs
        obtain ⟨head, tail⟩ := List.append_inj signs count
        rw [first head, rest tail]

theorem members_fixedByZeros {xs : List (String × Json)} (each : ∀ m ∈ xs, m.2.FixedByZeros)
    {ys : List (String × Json)} (h : sameMembers xs ys = true) :
    (memberZeroSigns xs).length = (memberZeroSigns ys).length ∧
      (memberZeroSigns xs = memberZeroSigns ys → xs = ys) := by
  induction xs generalizing ys with
  | nil =>
    cases ys with
    | nil => exact ⟨rfl, fun _ => rfl⟩
    | cons y ys => cases h
  | cons x xs ih =>
    cases ys with
    | nil => cases h
    | cons y ys =>
      obtain ⟨k, v⟩ := x
      obtain ⟨l, w⟩ := y
      simp only [sameMembers, Bool.and_eq_true, beq_iff_eq] at h
      obtain ⟨⟨rfl, same⟩, others⟩ := h
      obtain ⟨count, first⟩ := each (k, v) List.mem_cons_self w same
      obtain ⟨counts, rest⟩ := ih (fun m hm => each m (List.mem_cons_of_mem _ hm)) others
      constructor
      · rw [memberZeroSigns, memberZeroSigns, List.length_append, List.length_append, count, counts]
      · intro signs
        obtain ⟨head, tail⟩ := List.append_inj signs count
        have value : v = w := first head
        rw [value, rest tail]

theorem fixedByZeros (v : Json) : v.FixedByZeros := by
  induction v using Json.induction with
  | null =>
    intro w h
    cases w with
    | null => exact ⟨rfl, fun _ => rfl⟩
    | _ => cases h
  | bool b =>
    intro w h
    cases w with
    | bool c =>
      obtain rfl : b = c := beq_iff_eq.mp h
      exact ⟨rfl, fun _ => rfl⟩
    | _ => cases h
  | number m =>
    intro w h
    cases w with
    | number n =>
      obtain ⟨count, signs⟩ := Number.fixedByZeros h
      exact ⟨count, fun same => congrArg Json.number (signs same)⟩
    | _ => cases h
  | string s =>
    intro w h
    cases w with
    | string t =>
      obtain rfl : s = t := beq_iff_eq.mp h
      exact ⟨rfl, fun _ => rfl⟩
    | _ => cases h
  | array xs each =>
    intro w h
    cases w with
    | array ys =>
      obtain ⟨count, signs⟩ := items_fixedByZeros each h
      exact ⟨count, fun same => congrArg Json.array (signs same)⟩
    | _ => cases h
  | object xs each =>
    intro w h
    cases w with
    | object ys =>
      obtain ⟨count, signs⟩ := members_fixedByZeros each h
      exact ⟨count, fun same => congrArg Json.object (signs same)⟩
    | _ => cases h

/-! ## Sameness under ordering and lookup -/

/-- Whether two members have one key and the same value. -/
def SameMember (x y : String × Json) : Prop := x.1 = y.1 ∧ x.2.same y.2 = true

theorem sameItems_iff {xs ys : List Json} :
    sameItems xs ys = true ↔ List.Forall₂ (fun v w => v.same w = true) xs ys := by
  induction xs generalizing ys with
  | nil => cases ys <;> simp [sameItems]
  | cons x xs ih => cases ys <;> simp [sameItems, ih]

theorem sameMembers_iff {xs ys : List (String × Json)} :
    sameMembers xs ys = true ↔ List.Forall₂ SameMember xs ys := by
  induction xs generalizing ys with
  | nil => cases ys <;> simp [sameMembers]
  | cons x xs ih => cases ys <;> simp [sameMembers, SameMember, ih]

theorem forall₂_insertEntry {x y : String × Json} (h : SameMember x y)
    {xs ys : List (String × Json)} (hs : List.Forall₂ SameMember xs ys) :
    List.Forall₂ SameMember (insertEntry x.1 x.2 xs) (insertEntry y.1 y.2 ys) := by
  induction hs with
  | nil => exact .cons h .nil
  | cons head tail ih =>
    rename_i p q ps qs
    rw [insertEntry, insertEntry, ← h.1, ← head.1]
    split
    · exact .cons ⟨rfl, h.2⟩ (.cons ⟨rfl, head.2⟩ tail)
    · split
      · exact .cons ⟨rfl, h.2⟩ tail
      · rw [← h.1] at ih
        exact .cons ⟨rfl, head.2⟩ ih

theorem same_ofMembers {xs ys : List (String × Json)} (h : List.Forall₂ SameMember xs ys) :
    (ofMembers xs).same (ofMembers ys) = true := by
  have folded : ∀ {ms ns}, List.Forall₂ SameMember ms ns →
      List.Forall₂ SameMember (xs.foldl (fun ms m => insertEntry m.1 m.2 ms) ms)
        (ys.foldl (fun ms m => insertEntry m.1 m.2 ms) ns) := by
    induction h with
    | nil => exact id
    | cons head _ ih => exact fun start => ih (forall₂_insertEntry head start)
  rw [ofMembers, ofMembers, same]
  exact sameMembers_iff.mpr (folded .nil)

theorem same_ordered {v w : Json} (h : v.same w = true) : v.ordered.same w.ordered = true := by
  induction v using Json.induction generalizing w with
  | null | bool | number | string =>
    cases w with
    | array | object => cases h
    | _ => exact h
  | array xs each =>
    cases w with
    | array ys =>
      rw [same, sameItems_iff] at h
      rw [ordered, ordered, same, sameItems_iff, orderedItems_eq, orderedItems_eq,
        List.forall₂_map_left_iff, List.forall₂_map_right_iff]
      have both := (List.forall₂_and_left xs ys).mpr ⟨each, h⟩
      exact both.imp fun v w item => item.1 item.2
    | _ => cases h
  | object xs each =>
    cases w with
    | object ys =>
      rw [same, sameMembers_iff] at h
      rw [ordered, ordered, orderedMembers_eq, orderedMembers_eq]
      apply same_ofMembers
      rw [List.forall₂_map_left_iff, List.forall₂_map_right_iff]
      have both := (List.forall₂_and_left xs ys).mpr ⟨each, h⟩
      exact both.imp fun x y member => ⟨member.2.1, member.1 member.2.2⟩
    | _ => cases h

theorem denotation?_eq_of_same {v w : Json} (h : v.same w = true) :
    v.denotation? = w.denotation? := by
  cases v with
  | number m =>
    cases w with
    | number n =>
      cases m with
      | int a =>
        cases n with
        | int b =>
          obtain rfl : a = b := beq_iff_eq.mp h
          rfl
        | float y => cases h
      | float x =>
        cases n with
        | int b => cases h
        | float y =>
          have value : x.value = y.value := x.same_iff.mp h
          simp only [denotation?, Number.value, value]
    | _ => cases h
  | bool | string =>
    cases w with
    | bool | string => simp_all [same, denotation?]
    | _ => cases h
  | null | array | object =>
    cases w with
    | null | array | object => rfl
    | _ => cases h

/-- No comparison tells values that are the same apart. -/
theorem indistinct_of_same {v w : Json} (h : v.same w = true) : v.Indistinct w := by
  have value := denotation?_eq_of_same h
  cases v with
  | array vs =>
    cases w with
    | array ws =>
      rw [same, sameItems_iff] at h
      exact indistinct_array (h.imp fun _ _ => denotation?_eq_of_same)
    | _ => cases h
  | _ =>
    cases w with
    | array => cases h
    | _ => exact ⟨value, rfl⟩

/-- A key is in both objects with indistinct values or in neither. -/
theorem findEntry_same {xs ys : List (String × Json)} (h : List.Forall₂ SameMember xs ys)
    (key : String) : Option.Rel Indistinct (findEntry key xs) (findEntry key ys) := by
  induction h with
  | nil => exact .none
  | cons head _ ih =>
    rw [findEntry, findEntry, ← head.1]
    split
    · exact .some (indistinct_of_same head.2)
    · exact ih

end Json

/-! ## Answers of a bucket -/

/-- Equal contexts meet the same conditions. -/
theorem Condition.holds_same (c : Condition) {a b : Context} (h : a.same b = true) :
    c.holds a = c.holds b := by
  exact c.holds_congr (Json.findEntry_same (Json.sameMembers_iff.mp h) c.property)

theorem Feature.grants_eq (f : Feature) {a b : Context}
    (segments : ∀ s : Segment, s.admits a = s.admits b) : f.grants a = f.grants b := by
  simp only [grants, grantingSegment?, segments]

/-! ## Identities of equal contexts -/

namespace Context

/-- The signs of the binary64 zeros of a context, in the order of the canonical text. -/
def zeroSigns (ctx : Context) : List Bool := (Json.ordered (.ofKeyMap ctx.attributes)).zeroSigns

/-- Equal contexts have one canonical text exactly if their zeros have the same signs. -/
theorem canonical_eq_iff {a b : Context} (h : a.same b = true) :
    a.canonical = b.canonical ↔ a.zeroSigns = b.zeroSigns := by
  have whole : (Json.ofKeyMap a.attributes).same (.ofKeyMap b.attributes) = true := h
  obtain ⟨-, fixed⟩ := Json.fixedByZeros _ _ (Json.same_ordered whole)
  constructor
  · intro text
    rw [zeroSigns, zeroSigns, Json.render_injective text]
  · intro signs
    rw [canonical, canonical, canonicalText, canonicalText, fixed signs]

/-- Equal contexts meet the same conditions. Their identities are equal exactly if their zeros have
the same signs or their digests collide, and then they are in one bucket and get the same
answers. -/
theorem identity_eq_iff_zeroSigns {a b : Context} (ha : a.Built) (hb : b.Built)
    (h : a.same b = true) :
    (∀ c : Condition, c.holds a = c.holds b) ∧
      (a.identity = b.identity ↔
        a.zeroSigns = b.zeroSigns ∨ DigestsCollide a.canonical b.canonical) ∧
      (a.identity = b.identity → a.bucket = b.bucket ∧
        (∀ s : Segment, s.admits a = s.admits b) ∧ ∀ f : Feature, f.grants a = f.grants b) := by
  have conditions : ∀ c : Condition, c.holds a = c.holds b := fun c => c.holds_same h
  refine ⟨conditions, ?_, ?_⟩
  · rw [ha.identity_eq, hb.identity_eq, ofText_eq_iff_collide, canonical_eq_iff h]
  · intro identity
    have bucket : a.bucket = b.bucket := by rw [Context.bucket, identity, Context.bucket]
    have segments : ∀ s : Segment, s.admits a = s.admits b := fun s =>
      s.admits_congr (fun c _ => conditions c) fun r _ => congrArg (rolloutAdmits r) bucket
    exact ⟨bucket, segments, fun f => f.grants_eq segments⟩

/-- The context of one attribute, a zero. -/
def ofZero (negative : Bool) : Context :=
  ofAttributes (.ofList [("x", .number (.float (.zero negative)))])

/-- The two zeros make equal contexts, so only their signs could tell the identities apart. -/
theorem identity_ofZero :
    (ofZero false).same (ofZero true) = true ∧
      ((ofZero false).identity = (ofZero true).identity ↔
        [false] = [true] ∨ DigestsCollide (ofZero false).canonical (ofZero true).canonical) := by
  have same : (ofZero false).same (ofZero true) = true := by decide
  exact ⟨same, (identity_eq_iff_zeroSigns (.ofAttributes _) (.ofAttributes _) same).2.1⟩

/-- A rollout to one half of all contexts. -/
def halfRollout : Feature := ⟨"half", [⟨"half", [], some (.ofInt 50)⟩]⟩

/-- The contexts of the two zeros are equal. They have different identities and buckets, and half a
rollout is granted to one of them and not to the other. -/
theorem equal_contexts_apart :
    (ofZero false).Built ∧ (ofZero true).Built ∧ (ofZero false).same (ofZero true) = true ∧
      (ofZero false).identity ≠ (ofZero true).identity ∧
      (ofZero false).bucket = 74 ∧ (ofZero true).bucket = 24 ∧
      halfRollout.grants (ofZero false) = false ∧ halfRollout.grants (ofZero true) = true := by
  have low : (ofZero false).bucket = 74 := by decide +kernel
  have high : (ofZero true).bucket = 24 := by decide +kernel
  refine ⟨.ofAttributes _, .ofAttributes _, by decide, ?_, low, high, by decide +kernel,
    by decide +kernel⟩
  intro same
  have bucket : (ofZero false).bucket = (ofZero true).bucket := by
    rw [Context.bucket, same, Context.bucket]
  rw [low, high] at bucket
  exact absurd bucket (by decide)

end Context

end FeatureGate
