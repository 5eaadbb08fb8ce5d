import FeatureGate.Proofs.Comparison
import FeatureGate.Proofs.Reading
import Mathlib.Tactic.NormNum

/-!
# The meaning of a config

A config can be read without compiling it: which contexts it grants follows from its own fields. The
feature that an accepted config compiles to grants the same contexts, segment by segment, and
whatever a segment leaves open admits no context.
-/

namespace FeatureGate

namespace Config

/-! ## Reading without compiling -/

/-- Whether an attribute equals the scalar that is read from a value. -/
def ItemEquals (v a : Json) : Prop := ∃ s, Scalar.ofJson? v = some s ∧ s.equals a = true

/-- Whether an attribute equals a value, item by item if both are lists. -/
def ValueEquals : Json → Json → Prop
  | .array vs, .array as => List.Forall₂ ItemEquals vs as
  | v, a => ItemEquals v a

/-- Whether an attribute compares with a value as an operator asks. -/
def Compares (op : String) (v a : Json) : Prop :=
  op = "equal" ∧ ValueEquals v a ∨
    op = "not_equal" ∧ ¬ ValueEquals v a ∨
    op = "in" ∧ (∃ vs, v = .array vs ∧ ∃ item ∈ vs, ItemEquals item a) ∨
    op = "not_in" ∧ ∃ vs, v = .array vs ∧ ∀ item ∈ vs, ¬ ItemEquals item a

/-- Whether a context meets a condition. -/
def Meets (d : Json) (ctx : Context) : Prop :=
  ∃ property op v a, d.member? "property" = some (.string property) ∧
    d.member? "op" = some (.string op) ∧ d.member? "value" = some v ∧
    ctx.get? property = some a ∧ Compares op v a

/-- Whether a segment admits a context. -/
def Admits (s : Json) (ctx : Context) : Prop :=
  (∃ r, s.member? "rollout" = some (.number r) ∧ 0 < r.value ∧
    ((ctx.identity.value % 100 : Nat) : ℚ) ≤ r.value) ∧
  ∀ d ∈ elements s "conditions", Meets d ctx

/-- Whether a config grants its feature to a context. -/
def Grants (config : Json) (ctx : Context) : Prop :=
  ∃ ss, config.member? "segments" = some (.array ss) ∧ ∃ s ∈ ss, Admits s ctx

/-- Why a segment is closed to a context, whatever else it says. -/
inductive Closed (s : Json) (ctx : Context) : Prop where
  | notMapping (h : s.isObject = false)
  | noRollout (h : s.member? "rollout" = none)
  | nullRollout (h : s.member? "rollout" = some .null)
  | zeroRollout (r : Json.Number) (h : s.member? "rollout" = some (.number r)) (zero : r.value = 0)
  | unknownOperator (d : Json) (hd : d ∈ elements s "conditions") (op : String)
      (h : d.member? "op" = some (.string op))
      (unknown : op ∉ ["equal", "not_equal", "in", "not_in"])
  | absentProperty (d : Json) (hd : d ∈ elements s "conditions") (property : String)
      (h : d.member? "property" = some (.string property)) (absent : ctx.get? property = none)

theorem Closed.not_admits {s : Json} {ctx : Context} (h : Closed s ctx) : ¬ Admits s ctx := by
  rintro ⟨⟨r, rollout, positive, -⟩, conditions⟩
  cases h with
  | notMapping h =>
    cases s with
    | object => simp [Json.isObject] at h
    | _ => simp [Json.member?] at rollout
  | noRollout h | nullRollout h => simp [h] at rollout
  | zeroRollout r' h zero =>
    rw [h, Option.some.injEq, Json.number.injEq] at rollout
    rw [← rollout, zero] at positive
    exact lt_irrefl 0 positive
  | unknownOperator d hd op h unknown =>
    obtain ⟨_, op', _, _, -, found, -, -, compares⟩ := conditions d hd
    rw [h, Option.some.injEq, Json.string.injEq] at found
    subst found
    apply unknown
    rcases compares with ⟨rfl, -⟩ | ⟨rfl, -⟩ | ⟨rfl, -⟩ | ⟨rfl, -⟩ <;> simp
  | absentProperty d hd property h absent =>
    obtain ⟨property', _, _, a, found, -, -, present, -⟩ := conditions d hd
    rw [h, Option.some.injEq, Json.string.injEq] at found
    rw [← found, absent] at present
    cases present

end Config

/-! ## Conditions -/

theorem Scalar.equals_iff_itemEquals {v : Json} {s : Scalar} (h : ofJson? v = some s) (a : Json) :
    s.equals a = true ↔ Config.ItemEquals v a := by
  constructor
  · intro equal
    exact ⟨s, h, equal⟩
  · rintro ⟨s', h', equal⟩
    rw [h, Option.some.injEq] at h'
    rw [h']
    exact equal

namespace Comparand

theorem equals_iff_valueEquals {v : Json} {c : Comparand} (h : ofJson v = .ok c) (a : Json) :
    c.equals a = true ↔ Config.ValueEquals v a := by
  rcases ofJson_cases h with ⟨s, hs, rfl⟩ | ⟨vs, ss, rfl, rfl, items⟩
  · rw [equals, Scalar.equals_iff_itemEquals hs]
    cases v with
    | array => cases hs
    | _ => rfl
  · cases a with
    | array as => exact matchItems_iff (items.imp fun _ _ => Scalar.equals_iff_itemEquals)
    | _ => simp [equals, Config.ValueEquals, Config.ItemEquals, Scalar.ofJson?]

/-- A list tells whether it has an attribute, a scalar does not. -/
theorem contains?_eq_some_iff {v : Json} {c : Comparand} (h : ofJson v = .ok c) (a : Json)
    (found : Bool) :
    c.contains? a = some found ↔
      ∃ vs, v = .array vs ∧ ((∃ item ∈ vs, Config.ItemEquals item a) ↔ found = true) := by
  rcases ofJson_cases h with ⟨s, hs, rfl⟩ | ⟨vs, ss, rfl, rfl, items⟩
  · constructor
    · intro found
      cases found
    · rintro ⟨vs, rfl, -⟩
      cases hs
  · have each := items.imp fun _ _ hs => (Scalar.equals_iff_itemEquals hs a).symm
    have some := exists_mem_iff_of_forall₂ each
    simp only [contains?, items?, Option.map_some, Option.some.injEq, Json.array.injEq,
      exists_eq_left', some]
    rw [← List.any_eq_true, Bool.eq_iff_iff]

end Comparand

namespace Condition

theorem accepts_iff {v : Json} {c : Comparand} (h : Comparand.ofJson v = .ok c)
    (property op : String) (a : Json) :
    (Condition.mk property (.ofName op) c).accepts a = true ↔ Config.Compares op v a := by
  unfold accepts Config.Compares Operator.ofName
  dsimp only
  by_cases equal : op = "equal"
  · subst equal
    simp [Comparand.equals_iff_valueEquals h]
  by_cases notEqual : op = "not_equal"
  · subst notEqual
    simp [← Comparand.equals_iff_valueEquals h]
  by_cases isIn : op = "in"
  · subst isIn
    simp [Comparand.contains?_eq_some_iff h]
  by_cases notIn : op = "not_in"
  · subst notIn
    simp [Comparand.contains?_eq_some_iff h]
  · simp [equal, notEqual, isIn, notIn]

theorem holds_iff {d : Json} {c : Condition} (h : (compile d).outcome = .ok c) (ctx : Context) :
    c.holds ctx = true ↔ Config.Meets d ctx := by
  obtain ⟨op, v, parts, sameOp, accepted⟩ := compile_eq_ok_iff.mp h
  obtain ⟨hproperty, hop, hvalue, -⟩ := parts?_eq_some_iff.mp parts
  have accepts := accepts_iff accepted c.property op
  rw [← sameOp] at accepts
  unfold holds
  constructor
  · intro holds
    split at holds
    · cases holds
    · rename_i a present
      exact ⟨c.property, op, v, a, hproperty, hop, hvalue, present, (accepts a).mp holds⟩
  · rintro ⟨property', op', v', a, hproperty', hop', hvalue', present, compares⟩
    rw [hproperty, Option.some.injEq, Json.string.injEq] at hproperty'
    rw [hop, Option.some.injEq, Json.string.injEq] at hop'
    rw [hvalue, Option.some.injEq] at hvalue'
    subst hop' hvalue'
    rw [hproperty', present]
    exact (accepts a).mpr compares

end Condition

/-! ## Segments and features -/

namespace Segment

theorem conditions_iff {configs : List Json} {cs : List Condition}
    (h : (Condition.compileAll configs).outcome = .ok cs) (ctx : Context) :
    cs.all (·.holds ctx) = true ↔ ∀ d ∈ configs, Config.Meets d ctx := by
  have each := (Condition.forall₂_of_compileAll h).imp fun _ _ hc =>
    (Condition.holds_iff hc ctx).symm
  rw [forall_mem_iff_of_forall₂ each, List.all_eq_true]

/-- An absent rollout is a rollout of zero, which admits nobody. -/
theorem rollout_iff {config : Json} {rollout : Option Binary64}
    (h : Config.number? config "rollout" = .ok rollout)
    (percentage : isPercentage (rollout.getD defaultRollout) = true) (ctx : Context) :
    rolloutAdmits (rollout.getD defaultRollout) ctx.bucket = true ↔
      ∃ r, config.member? "rollout" = some (.number r) ∧ 0 < r.value ∧
        ((ctx.identity.value % 100 : Nat) : ℚ) ≤ r.value := by
  rcases Config.number?_eq_ok h with ⟨absent, rfl⟩ | ⟨r, found, rfl⟩
  · constructor
    · intro admits
      cases admits
    · rintro ⟨r, found, -⟩
      rw [Config.present?_eq_some_iff.mpr ⟨found, Json.noConfusion⟩] at absent
      cases absent
  · rw [Option.getD_some] at percentage ⊢
    rw [rolloutAdmits_iff percentage, ctx.bucket_eq]
    simp only [found, Option.some.injEq, Json.number.injEq, exists_eq_left']

theorem admits_iff {config : Json} {s : Segment} (h : (compile config).outcome = .ok s)
    (ctx : Context) : s.admits ctx = true ↔ Config.Admits config ctx := by
  obtain ⟨conditions, rollout, number, same, percentage⟩ := compile_eq_ok h
  rw [admits, same, Bool.and_eq_true, conditions_iff conditions, rollout_iff number percentage,
    Config.Admits, and_comm]

end Segment

theorem Feature.grants_iff_any (f : Feature) (ctx : Context) :
    f.grants ctx = true ↔ ∃ s ∈ f.segments, s.admits ctx = true := by
  rw [grants, grantingSegment?, List.find?_isSome]

/-- An accepted config grants what the feature grants that it compiles to, and each of its segments
that is closed to a context compiles to one that does not admit it. -/
theorem Feature.grants_iff {name : String} {config : Json} {f : Feature}
    (h : (compile name config).outcome = .ok f) :
    (∀ ctx, f.grants ctx = true ↔ Config.Grants config ctx) ∧
      List.Forall₂ (fun s segment => ∀ ctx, Config.Closed s ctx → segment.admits ctx = false)
        (Config.elements config "segments") f.segments := by
  have each := Segment.forall₂_of_compileAll (compile_eq_ok h)
  constructor
  · intro ctx
    have admits := each.imp fun _ _ hs => (Segment.admits_iff hs ctx).symm
    rw [grants_iff_any, ← exists_mem_iff_of_forall₂ admits, Config.Grants, Config.elements]
    split
    · rename_i ss found
      simp [found]
    · rename_i other
      constructor
      · rintro ⟨s, hs, -⟩
        cases hs
      · rintro ⟨ss, found, -⟩
        exact absurd found (other ss)
  · apply each.imp
    intro s segment compiled ctx closed
    rw [Bool.eq_false_iff, Ne, Segment.admits_iff compiled]
    exact closed.not_admits

/-- A full rollout to two values of one attribute. -/
def Config.fullRollout : Json :=
  .object [("segments", .array [.object [
    ("conditions", .array [.object [("op", .string "in"), ("property", .string "p"),
      ("value", .array [.string "a", .string "b"])]]),
    ("rollout", .number (.int 100 (by decide)))]])]

theorem Feature.compile_fullRollout :
    (compile "f" Config.fullRollout).outcome =
      .ok ⟨"f",
        [⟨"unknown", [⟨"p", .isIn, .list [.text "a", .text "b"]⟩], some (.ofInt 100)⟩]⟩ := by
  have percentage := Segment.isPercentage_hundred
  simp [Config.fullRollout, compile, Segment.compileAll, Segment.compile, Condition.compileAll,
    Condition.outcome_compile, Condition.parts?, Report.outcome_bind, Config.items, Config.present?,
    Config.string?, Config.number?, Json.member?, findEntry, Json.Number.toBinary64, percentage,
    Except.bind, Except.map, Comparand.ofJson, Comparand.scalarsOfItems, Scalar.ofJson?,
    Segment.defaultName, Json.isObject, Operator.ofName]

theorem Feature.grants_fullRollout :
    ∃ f, (compile "f" Config.fullRollout).outcome = .ok f ∧
      f.grants (.ofAttributes (.ofList [("p", .string "b")])) = true ∧
      f.grants .empty = false := by
  obtain ⟨grants, -⟩ := grants_iff compile_fullRollout
  refine ⟨_, compile_fullRollout, ?_, ?_⟩
  · rw [grants]
    refine ⟨_, rfl, _, List.mem_singleton_self _, ⟨_, rfl, ?_, ?_⟩, ?_⟩
    · norm_num [Json.Number.value]
    · have bucket :
          (Context.ofAttributes (.ofList [("p", .string "b")])).identity.value % 100 < 100 :=
        Nat.mod_lt _ (by decide)
      generalize (Context.ofAttributes (.ofList [("p", .string "b")])).identity.value % 100 = n
        at bucket
      rw [Json.Number.value]
      exact_mod_cast bucket.le
    · intro d hd
      obtain rfl := List.mem_singleton.mp hd
      refine ⟨"p", "in", _, .string "b", rfl, rfl, rfl, rfl, .inr (.inr (.inl ⟨rfl, _, rfl, ?_⟩))⟩
      exact ⟨.string "b", by simp, .text "b", rfl, by decide⟩
  · rw [Bool.eq_false_iff, Ne, grants]
    rintro ⟨ss, found, s, hs, -, conditions⟩
    obtain rfl := Json.array.inj (Option.some.inj found)
    obtain rfl := List.mem_singleton.mp hs
    obtain ⟨property, _, _, a, hp, -, -, present, -⟩ := conditions _ (List.mem_singleton_self _)
    cases present

end FeatureGate
