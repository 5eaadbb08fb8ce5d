import FeatureGate.Proofs.Meaning
import Mathlib.Logic.Relation

/-!
# Wider rules

A segment dominates another if all it asks for is asked for by the other too, and its rollout is at
least as large. A feature whose segments are dominated by those of a second feature is granted to no
context that the second one is not granted to. So a feature only gains contexts as its rollouts are
raised, its conditions dropped and segments added, and neither order nor repetition nor names matter.
-/

namespace FeatureGate

/-! ## The order of rollouts -/

/-- The numerical order. What is not a number compares with itself only. -/
inductive Binary64.Le : Binary64 → Binary64 → Prop where
  | refl (x : Binary64) : Le x x
  | finite (x y : Finite64) (h : x.value ≤ y.value) : Le (.finite x) (.finite y)
  | lowest (x : Binary64) (number : x ≠ .nan) : Le (.infinity true) x
  | highest (x : Binary64) (number : x ≠ .nan) : Le x (.infinity false)

/-- The order of rollouts, in which no rollout is the largest. -/
def RolloutLe : Option Binary64 → Option Binary64 → Prop
  | _, none => True
  | none, some _ => False
  | some x, some y => x.Le y

theorem RolloutLe.refl (rollout : Option Binary64) : RolloutLe rollout rollout := by
  cases rollout with
  | none => trivial
  | some x => exact Binary64.Le.refl x

/-- A larger rollout admits every bucket that a smaller one admits. -/
theorem rolloutAdmits_mono {x y : Binary64} (h : x.Le y) {bucket : Nat}
    (admitted : rolloutAdmits x bucket = true) : rolloutAdmits y bucket = true := by
  cases h with
  | refl => exact admitted
  | finite x y le =>
    obtain ⟨positive, bound⟩ := rolloutAdmits_finite_iff.mp admitted
    exact rolloutAdmits_finite_iff.mpr ⟨lt_of_lt_of_le positive le, le_trans bound le⟩
  | lowest => cases admitted
  | highest => rfl

/-! ## Conditions that are the same -/

/-- Equal scalars denote the same. -/
theorem Scalar.denotation?_eq_of_same {a b : Scalar} (h : a.same b = true) :
    a.denotation? = b.denotation? := by
  cases a with
  | float x =>
    cases b with
    | float y =>
      cases x with
      | finite x =>
        cases y with
        | finite y =>
          have value : x.value = y.value := x.same_iff.mp h
          simp only [denotation?, value]
        | nan | infinity => cases h
      | nan | infinity =>
        cases y with
        | finite y => cases h
        | nan | infinity => rfl
    | _ => cases h
  | bool | int | text =>
    cases b with
    | bool | int | text => simp_all [same, denotation?]
    | float => cases h

theorem Scalar.equals_eq_of_same {a b : Scalar} (h : a.same b = true) (v : Json) :
    a.equals v = b.equals v := by
  rw [Bool.eq_iff_iff, equals_iff, equals_iff, denotation?_eq_of_same h]

namespace Comparand

theorem forall₂_of_sameItems {xs ys : List Scalar} (h : sameItems xs ys = true) :
    List.Forall₂ (fun x y => x.same y = true) xs ys := by
  induction xs generalizing ys with
  | nil =>
    cases ys with
    | nil => exact .nil
    | cons y ys => cases h
  | cons x xs ih =>
    cases ys with
    | nil => cases h
    | cons y ys =>
      obtain ⟨head, tail⟩ := Bool.and_eq_true_iff.mp h
      exact .cons head (ih tail)

theorem matchItems_eq_of_same {xs ys : List Scalar}
    (h : List.Forall₂ (fun x y => x.same y = true) xs ys) (vs : List Json) :
    matchItems xs vs = matchItems ys vs := by
  induction h generalizing vs with
  | nil => rfl
  | cons head _ ih =>
    cases vs with
    | nil => rfl
    | cons v vs => rw [matchItems, matchItems, Scalar.equals_eq_of_same head, ih]

theorem any_eq_of_same {xs ys : List Scalar}
    (h : List.Forall₂ (fun x y => x.same y = true) xs ys) (v : Json) :
    (xs.any fun s => s.equals v) = ys.any fun s => s.equals v := by
  induction h with
  | nil => rfl
  | cons head _ ih => rw [List.any_cons, List.any_cons, Scalar.equals_eq_of_same head, ih]

theorem equals_eq_of_same {a b : Comparand} (h : a.same b = true) (v : Json) :
    a.equals v = b.equals v := by
  cases a with
  | scalar s =>
    cases b with
    | scalar t => exact Scalar.equals_eq_of_same h v
    | list ys => cases h
  | list xs =>
    cases b with
    | scalar t => cases h
    | list ys =>
      cases v with
      | array vs => exact matchItems_eq_of_same (forall₂_of_sameItems h) vs
      | _ => rfl

theorem contains?_eq_of_same {a b : Comparand} (h : a.same b = true) (v : Json) :
    a.contains? v = b.contains? v := by
  cases a with
  | scalar s =>
    cases b with
    | scalar t => rfl
    | list ys => cases h
  | list xs =>
    cases b with
    | scalar t => cases h
    | list ys => exact congrArg some (any_eq_of_same (forall₂_of_sameItems h) v)

end Comparand

/-- Equal conditions are met by the same contexts. -/
theorem Condition.holds_eq_of_same {c d : Condition} (h : c.same d = true) (ctx : Context) :
    c.holds ctx = d.holds ctx := by
  obtain ⟨parts, value⟩ := Bool.and_eq_true_iff.mp h
  obtain ⟨property, op⟩ := Bool.and_eq_true_iff.mp parts
  simp only [holds, accepts, beq_iff_eq.mp property, beq_iff_eq.mp op,
    Comparand.equals_eq_of_same value, Comparand.contains?_eq_of_same value]

/-! ## Domination -/

/-- Whether a condition, or an equal one, is in a list. -/
def Condition.OccursIn (c : Condition) (cs : List Condition) : Prop :=
  ∃ d ∈ cs, d = c ∨ d.same c = true

/-- A segment asks for nothing that the other does not ask for, and its rollout is no smaller. -/
structure Segment.Dominates (t s : Segment) : Prop where
  conditions : ∀ c ∈ t.conditions, c.OccursIn s.conditions
  rollout : RolloutLe s.rollout t.rollout

/-- Every segment of a feature is dominated by one of the other. -/
def Feature.DominatedBy (f g : Feature) : Prop :=
  ∀ s ∈ f.segments, ∃ t ∈ g.segments, t.Dominates s

theorem Segment.Dominates.admits {s t : Segment} (h : t.Dominates s) {ctx : Context}
    (admitted : s.admits ctx = true) : t.admits ctx = true := by
  obtain ⟨met, inside⟩ := Bool.and_eq_true_iff.mp admitted
  apply Bool.and_eq_true_iff.mpr
  constructor
  · rw [List.all_eq_true] at met ⊢
    intro c hc
    obtain ⟨d, hd, same | same⟩ := h.conditions c hc
    · rw [← same]
      exact met d hd
    · rw [← Condition.holds_eq_of_same same]
      exact met d hd
  · have rollout := h.rollout
    cases larger : t.rollout with
    | none => rfl
    | some y =>
      cases smaller : s.rollout with
      | none =>
        rw [larger, smaller] at rollout
        cases rollout
      | some x =>
        rw [larger, smaller] at rollout
        rw [smaller] at inside
        exact rolloutAdmits_mono rollout inside

theorem Feature.DominatedBy.grants {f g : Feature} (h : f.DominatedBy g) {ctx : Context}
    (granted : f.grants ctx = true) : g.grants ctx = true := by
  obtain ⟨s, hs, admitted⟩ := (f.grants_iff_any ctx).mp granted
  obtain ⟨t, ht, dominates⟩ := h s hs
  exact (g.grants_iff_any ctx).mpr ⟨t, ht, dominates.admits admitted⟩

/-- A segment dominates one with at least its conditions and with its rollout. -/
theorem Segment.dominates_of_subset {s t : Segment} (conditions : t.conditions ⊆ s.conditions)
    (rollout : s.rollout = t.rollout) : t.Dominates s where
  conditions := fun c hc => ⟨c, conditions hc, .inl rfl⟩
  rollout := rollout ▸ RolloutLe.refl _

theorem Segment.dominates_self (s : Segment) : s.Dominates s :=
  dominates_of_subset (List.Subset.refl _) rfl

namespace Feature

theorem dominatedBy_of_subset {f g : Feature} (h : f.segments ⊆ g.segments) : f.DominatedBy g := by
  intro s hs
  exact ⟨s, h hs, s.dominates_self⟩

/-- Putting a dominating segment in the place of another. -/
theorem dominatedBy_replace {s t : Segment} (h : t.Dominates s) (name : String)
    (before after : List Segment) :
    DominatedBy ⟨name, before ++ s :: after⟩ ⟨name, before ++ t :: after⟩ := by
  intro u hu
  rcases List.mem_append.mp hu with hu | hu
  · exact ⟨u, List.mem_append_left _ hu, u.dominates_self⟩
  · rcases List.mem_cons.mp hu with rfl | hu
    · exact ⟨t, List.mem_append_right _ List.mem_cons_self, h⟩
    · exact ⟨u, List.mem_append_right _ (List.mem_cons_of_mem _ hu), u.dominates_self⟩

/-! ## Changes of a feature -/

/-- One change by which a feature is widened. -/
inductive Widening : Feature → Feature → Prop where
  | raise (name : String) (before : List Segment) (s : Segment) (after : List Segment)
      (rollout : Option Binary64) (larger : RolloutLe s.rollout rollout) :
      Widening ⟨name, before ++ s :: after⟩ ⟨name, before ++ { s with rollout := rollout } :: after⟩
  | drop (name : String) (before : List Segment) (s : Segment) (after : List Segment)
      (conditions : List Condition) (fewer : conditions.Sublist s.conditions) :
      Widening ⟨name, before ++ s :: after⟩
        ⟨name, before ++ { s with conditions := conditions } :: after⟩
  | add (f : Feature) (segments : List Segment) (more : f.segments.Sublist segments) :
      Widening f { f with segments := segments }

/-- One change that only writes a feature differently: other names, another order, repetitions. -/
inductive Rewriting : Feature → Feature → Prop where
  | rename (f : Feature) (name : String) : Rewriting f { f with name := name }
  | segments (f : Feature) (segments : List Segment) (same : ∀ s, s ∈ segments ↔ s ∈ f.segments) :
      Rewriting f { f with segments := segments }
  | renameSegment (name : String) (before : List Segment) (s : Segment) (after : List Segment)
      (segmentName : String) :
      Rewriting ⟨name, before ++ s :: after⟩
        ⟨name, before ++ { s with name := segmentName } :: after⟩
  | conditions (name : String) (before : List Segment) (s : Segment) (after : List Segment)
      (conditions : List Condition) (same : ∀ c, c ∈ conditions ↔ c ∈ s.conditions) :
      Rewriting ⟨name, before ++ s :: after⟩
        ⟨name, before ++ { s with conditions := conditions } :: after⟩

theorem Widening.dominatedBy {f g : Feature} (h : Widening f g) : f.DominatedBy g := by
  cases h with
  | raise name before s after rollout larger =>
    have dominates : Segment.Dominates { s with rollout := rollout } s :=
      ⟨s.dominates_self.conditions, larger⟩
    exact dominatedBy_replace dominates name before after
  | drop name before s after conditions fewer =>
    have dominates : Segment.Dominates { s with conditions := conditions } s :=
      Segment.dominates_of_subset fewer.subset rfl
    exact dominatedBy_replace dominates name before after
  | add _ segments more => exact dominatedBy_of_subset more.subset

/-- Of two features that are only written differently each dominates the other. -/
theorem Rewriting.dominatedBy {f g : Feature} (h : Rewriting f g) :
    f.DominatedBy g ∧ g.DominatedBy f := by
  cases h with
  | rename _ name =>
    have all : f.segments ⊆ f.segments := List.Subset.refl _
    exact ⟨dominatedBy_of_subset all, dominatedBy_of_subset all⟩
  | segments _ segments same =>
    have there : f.segments ⊆ segments := fun s hs => (same s).mpr hs
    have back : segments ⊆ f.segments := fun s hs => (same s).mp hs
    exact ⟨dominatedBy_of_subset there, dominatedBy_of_subset back⟩
  | renameSegment name before s after segmentName =>
    have all : s.conditions ⊆ s.conditions := List.Subset.refl _
    have there : Segment.Dominates { s with name := segmentName } s :=
      Segment.dominates_of_subset all rfl
    have back : Segment.Dominates s { s with name := segmentName } :=
      Segment.dominates_of_subset all rfl
    exact ⟨dominatedBy_replace there name before after,
      dominatedBy_replace back name before after⟩
  | conditions name before s after conditions same =>
    have there : Segment.Dominates { s with conditions := conditions } s :=
      Segment.dominates_of_subset (fun c hc => (same c).mp hc) rfl
    have back : Segment.Dominates s { s with conditions := conditions } :=
      Segment.dominates_of_subset (fun c hc => (same c).mpr hc) rfl
    exact ⟨dominatedBy_replace there name before after,
      dominatedBy_replace back name before after⟩

theorem grants_of_changes {f g : Feature}
    (h : Relation.ReflTransGen (fun f g => Widening f g ∨ Rewriting f g) f g) {ctx : Context}
    (granted : f.grants ctx = true) : g.grants ctx = true := by
  induction h with
  | refl => exact granted
  | tail _ change ih =>
    rcases change with widened | rewritten
    · exact widened.dominatedBy.grants ih
    · exact rewritten.dominatedBy.1.grants ih

theorem grants_eq_of_rewritings {f g : Feature} (h : Relation.ReflTransGen Rewriting f g)
    (ctx : Context) : f.grants ctx = g.grants ctx := by
  induction h with
  | refl => rfl
  | tail _ rewritten ih =>
    obtain ⟨there, back⟩ := rewritten.dominatedBy
    rw [ih, Bool.eq_iff_iff]
    exact ⟨there.grants, back.grants⟩

/-- Two features with the same conditions, segment by segment, at one rollout each. -/
def SameAt (x y : Binary64) (f g : Feature) : Prop :=
  List.Forall₂ (fun s t => s.conditions = t.conditions ∧ s.rollout = some x ∧ t.rollout = some y)
    f.segments g.segments

theorem SameAt.dominatedBy {x y : Binary64} {f g : Feature} (h : SameAt x y f g) (le : x.Le y) :
    f.DominatedBy g := by
  intro s hs
  obtain ⟨t, ht, conditions, low, high⟩ := exists_mem_of_forall₂ h hs
  refine ⟨t, ht, ?_, ?_⟩
  · intro c hc
    exact ⟨c, conditions ▸ hc, .inl rfl⟩
  · rw [low, high]
    exact le

/-- What dominates a feature is granted wherever the feature is. So no series of changes that widen a
feature, or write it differently, takes it away from a context, a series of the latter changes no
answer, and raising the one rollout of all segments keeps everyone who was admitted. -/
theorem grants_of_wider (ctx : Context) :
    (∀ f g : Feature, f.DominatedBy g → f.grants ctx = true → g.grants ctx = true) ∧
      (∀ f g, Relation.ReflTransGen (fun f g => Widening f g ∨ Rewriting f g) f g →
        f.grants ctx = true → g.grants ctx = true) ∧
      (∀ f g, Relation.ReflTransGen Rewriting f g → f.grants ctx = g.grants ctx) ∧
      ∀ f g (x y : Binary64), x.Le y → SameAt x y f g → f.grants ctx = true →
        g.grants ctx = true := by
  refine ⟨?_, ?_, ?_, ?_⟩
  · intro f g dominated granted
    exact dominated.grants granted
  · intro f g changes granted
    exact grants_of_changes changes granted
  · intro f g rewritten
    exact grants_eq_of_rewritings rewritten ctx
  · intro f g x y le same granted
    exact (same.dominatedBy le).grants granted

/-- A feature for one account, at the least positive rollout. -/
def narrowest : Feature :=
  ⟨"narrow", [⟨"account", [⟨"id", .equal, .scalar (.int 28)⟩,
    ⟨"id", .notEqual, .scalar (.text "28")⟩], some (.finite ⟨false, 1, 0, by decide⟩)⟩]⟩

/-- The same with one condition less, at a larger rollout, and behind a segment for nobody. -/
def wider : Feature :=
  ⟨"wide", [⟨"nobody", [], some .zero⟩,
    ⟨"accounts", [⟨"id", .equal, .scalar (.int 28)⟩], some (.ofInt 1)⟩]⟩

theorem narrowest_dominatedBy : narrowest.DominatedBy wider := by
  obtain ⟨y, one, value⟩ := Binary64.ofInt_of_small (n := 1) (by decide)
  have least : (⟨false, 1, 0, by decide⟩ : Finite64).value ≤ y.value := by
    rw [value, Finite64.value_le_int_iff]
    decide +kernel
  intro s hs
  obtain rfl := List.mem_singleton.mp hs
  refine ⟨_, List.mem_cons_of_mem _ (List.mem_singleton_self _), ?_, ?_⟩
  · intro c hc
    obtain rfl := List.mem_singleton.mp hc
    exact ⟨_, List.mem_cons_self, .inl rfl⟩
  · change Binary64.Le _ (.ofInt 1)
    rw [one]
    exact .finite _ _ least

/-- A context in the first bucket, which a rollout of zero would not admit, keeps the feature. -/
theorem grants_of_wider_firstBucket :
    ∃ ctx : Context, ctx.bucket = 0 ∧ narrowest.DominatedBy wider ∧ narrowest.grants ctx = true ∧
      wider.grants ctx = true := by
  let ctx := Context.ofAttributes (.ofList [("id", .number (.int 28 (by decide)))])
  have granted : narrowest.grants ctx = true := by decide +kernel
  exact ⟨ctx, by decide +kernel, narrowest_dominatedBy, granted,
    (grants_of_wider ctx).1 _ _ narrowest_dominatedBy granted⟩

end Feature

end FeatureGate
