import FeatureGate.Proofs.Comparison
import FeatureGate.Proofs.Reading
import Mathlib.Data.List.Find

/-!
# What a feature depends on

A feature reads the attributes that its conditions name and the bucket of the context. Of an
attribute it reads what the value and its items denote, so `1` may stand for `1.0`, and an attribute
that no condition names may be anything. The bucket is not read either, if every rollout admits all
buckets or none.
-/

namespace FeatureGate

/-! ## Attributes -/

/-- Values that are identical, or numbers of one exact value, or lists of such values. -/
inductive Json.Interchangeable : Json → Json → Prop
  | refl (v : Json) : Interchangeable v v
  | number {m n : Json.Number} (h : m.value = n.value) : Interchangeable (.number m) (.number n)
  | array {vs ws : List Json} (h : List.Forall₂ Interchangeable vs ws) :
      Interchangeable (.array vs) (.array ws)

namespace Json.Interchangeable

theorem denotation?_eq {v w : Json} (h : v.Interchangeable w) :
    v.denotation? = w.denotation? := by
  cases h with
  | refl => rfl
  | number value => rw [denotation?, denotation?, value]
  | array => rfl

/-- No comparison tells interchangeable values apart. -/
theorem indistinct {v w : Json} (h : v.Interchangeable w) : v.Indistinct w := by
  cases h with
  | refl => exact ⟨rfl, rfl⟩
  | number value =>
    have same := denotation?_eq (.number value)
    exact ⟨same, rfl⟩
  | array items => exact indistinct_array (items.imp fun _ _ => denotation?_eq)

end Json.Interchangeable

/-! ## Buckets -/

/-- Rollouts that admit no bucket or all of them. -/
inductive Binary64.AllOrNone : Binary64 → Prop
  | zero {x : Finite64} (h : x.value = 0) : AllOrNone (.finite x)
  | wide {x : Finite64} (h : 99 ≤ x.value) : AllOrNone (.finite x)
  | infinite : AllOrNone (.infinity false)

namespace Binary64.AllOrNone

theorem ofInt {n : Int} (least : 99 ≤ n) (small : n.natAbs < 2 ^ 53) : (ofInt n).AllOrNone := by
  obtain ⟨x, finite, value⟩ := ofInt_of_small small
  rw [finite]
  apply wide
  rw [value]
  exact_mod_cast least

/-- Such a rollout admits both or neither of two contexts. -/
theorem rolloutAdmits_eq {r : Binary64} (h : r.AllOrNone) (a b : Context) :
    rolloutAdmits r a.bucket = rolloutAdmits r b.bucket := by
  cases h with
  | infinite =>
    have admitted : ∀ bucket, rolloutAdmits (.infinity false) bucket = true := fun _ => rfl
    rw [admitted, admitted]
  | zero none =>
    rw [Bool.eq_iff_iff, rolloutAdmits_finite_iff, rolloutAdmits_finite_iff]
    simp only [none, lt_irrefl, false_and]
  | wide least => rw [rolloutAdmits_of_wide least, rolloutAdmits_of_wide least]

end Binary64.AllOrNone

/-! ## Features -/

namespace Feature

/-- A feature has the same answer for two contexts, and by the same segment, if these have
interchangeable attributes of each property that a condition names, or none, and if moreover they
are in one bucket or no rollout of the feature tells buckets apart. -/
theorem grants_eq_of_interchangeable (f : Feature) {a b : Context}
    (mentioned : ∀ s ∈ f.segments, ∀ c ∈ s.conditions,
      Option.Rel Json.Interchangeable (a.get? c.property) (b.get? c.property))
    (bucket : a.identity.value % 100 = b.identity.value % 100 ∨
      ∀ s ∈ f.segments, ∀ r, s.rollout = some r → r.AllOrNone) :
    f.grantingSegment? a = f.grantingSegment? b ∧ f.grants a = f.grants b := by
  have segments : ∀ s ∈ f.segments, s.admits a = s.admits b := by
    intro s hs
    apply s.admits_congr
    · intro c hc
      apply c.holds_congr
      have attributes := mentioned s hs c hc
      generalize a.get? c.property = v at attributes
      generalize b.get? c.property = w at attributes
      cases attributes with
      | none => exact .none
      | some alike => exact .some alike.indistinct
    · intro r hr
      rcases bucket with same | free
      · rw [a.bucket_eq, b.bucket_eq, same]
      · exact (free s hs r hr).rolloutAdmits_eq a b
  have granting : f.grantingSegment? a = f.grantingSegment? b := List.find?_congr segments
  exact ⟨granting, congrArg Option.isSome granting⟩

end Feature

/-! ## An integer in place of a float -/

theorem one_inRange : -2 ^ 63 ≤ (1 : Int) ∧ (1 : Int) < 2 ^ 64 := by decide

/-- The number one, as an integer or as a float. -/
def Json.one : Bool → Json
  | true => .number (.int 1 one_inRange)
  | false => .number (.float .one)

theorem Json.Interchangeable.one : (Json.one true).Interchangeable (.one false) := by
  apply number
  symm
  exact Finite64.value_one

/-- One alone and in a list, beside an attribute that depends on how the one is held. -/
def Context.ofOne (integer : Bool) : Context :=
  .ofAttributes (.ofList
    [("n", .one integer), ("ns", .array [.one integer]), ("integer", .bool integer)])

/-- A feature with a rollout that is as good as full, and a segment without a rollout. -/
def Feature.ofOnes : Feature :=
  ⟨"ones", [⟨"both", [⟨"n", .equal, .scalar (.int 1)⟩, ⟨"m", .equal, .scalar (.int 1)⟩],
      some (.ofInt 99)⟩,
    ⟨"listed", [⟨"ns", .notEqual, .list [.int 2]⟩, ⟨"n", .isIn, .list [.int 1]⟩], none⟩]⟩

/-- One beside a note that no condition names. -/
def Context.noted (integer : Bool) (note : String) : Context :=
  .ofAttributes (.ofList [("n", .one integer), ("note", .string note)])

/-- A feature for half of those who have a one. -/
def Feature.forHalf : Feature :=
  ⟨"half", [⟨"some", [⟨"n", .equal, .scalar (.int 1)⟩], some (.ofInt 50)⟩]⟩

/-- Two contexts have different buckets, attributes of different kinds and one that no condition
names, and both lack `m`. Two others have different identities in one bucket, which the half
includes, while another note leads out of it. -/
theorem Feature.grants_ofOne :
    ((Context.ofOne true).bucket ≠ (Context.ofOne false).bucket ∧
      Feature.ofOnes.grants (.ofOne true) = true ∧
      Feature.ofOnes.grants (.ofOne true) = Feature.ofOnes.grants (.ofOne false)) ∧
    (Context.noted true "h").identity.value ≠ (Context.noted false "r").identity.value ∧
      Feature.forHalf.grants (.noted true "a") = false ∧
      Feature.forHalf.grants (.noted true "h") = true ∧
      Feature.forHalf.grants (.noted true "h") = Feature.forHalf.grants (.noted false "r") := by
  have one := Json.Interchangeable.one
  refine ⟨?_, ?_⟩
  · have buckets : (Context.ofOne true).bucket ≠ (Context.ofOne false).bucket := by decide +kernel
    have granted : Feature.ofOnes.grants (.ofOne true) = true := by decide +kernel
    have mentioned : ∀ s ∈ Feature.ofOnes.segments, ∀ c ∈ s.conditions,
        Option.Rel Json.Interchangeable ((Context.ofOne true).get? c.property)
          ((Context.ofOne false).get? c.property) := by
      simp only [Feature.ofOnes, List.forall_mem_cons]
      exact ⟨⟨.some one, .none, nofun⟩, ⟨.some (.array (.cons one .nil)), .some one, nofun⟩, nofun⟩
    have free : ∀ s ∈ Feature.ofOnes.segments, ∀ r, s.rollout = some r → r.AllOrNone := by
      refine List.forall_mem_cons.mpr ⟨?_, List.forall_mem_singleton.mpr nofun⟩
      intro r found
      obtain rfl : Binary64.ofInt 99 = r := Option.some.inj found
      exact .ofInt (by decide) (by decide)
    exact ⟨buckets, granted,
      (Feature.ofOnes.grants_eq_of_interchangeable mentioned (.inr free)).2⟩
  · have apart : (Context.noted true "h").identity.value ≠
        (Context.noted false "r").identity.value := by decide +kernel
    have excluded : Feature.forHalf.grants (.noted true "a") = false := by decide +kernel
    have included : Feature.forHalf.grants (.noted true "h") = true := by decide +kernel
    have bucket : (Context.noted true "h").identity.value % 100 =
        (Context.noted false "r").identity.value % 100 := by decide +kernel
    have mentioned : ∀ s ∈ Feature.forHalf.segments, ∀ c ∈ s.conditions,
        Option.Rel Json.Interchangeable ((Context.noted true "h").get? c.property)
          ((Context.noted false "r").get? c.property) := by
      simp only [Feature.forHalf, List.forall_mem_cons]
      exact ⟨⟨.some one, nofun⟩, nofun⟩
    exact ⟨apart, excluded, included,
      (Feature.forHalf.grants_eq_of_interchangeable mentioned (.inl bucket)).2⟩

end FeatureGate
