import FeatureGate.Config.Compile
import FeatureGate.Proofs.Exactness
import Mathlib.Data.List.Forall2

/-!
# What an accepted config looks like

A compilation that succeeds has read every fragment of its config, in order, and each fragment has
the fields that its kind asks for.
-/

namespace FeatureGate

/-- A traversal that compiles the items of a list in turn succeeds exactly if each of them compiles,
and relates its list to its result item by item. -/
theorem Report.traversal_eq_ok_iff {ε α β : Type} (f : α → Report ε β)
    (traverse : List α → Report ε (List β)) (nil : traverse [] = pure [])
    (cons : ∀ a as, traverse (a :: as) = do
      let b ← f a
      let bs ← traverse as
      return b :: bs)
    {as : List α} {bs : List β} :
    (traverse as).outcome = .ok bs ↔ List.Forall₂ (fun a b => (f a).outcome = .ok b) as bs := by
  induction as generalizing bs with
  | nil =>
    rw [nil, Report.outcome_pure, List.forall₂_nil_left_iff]
    constructor
    · rintro ⟨⟩
      rfl
    · rintro rfl
      rfl
  | cons a as ih =>
    rw [cons, List.forall₂_cons_left_iff]
    simp only [Report.outcome_bind_eq_ok_iff, Report.outcome_pure]
    constructor
    · rintro ⟨b, first, bs', rest, joined⟩
      exact ⟨b, bs', first, ih.mp rest, (Except.ok.inj joined).symm⟩
    · rintro ⟨b, bs', first, rest, rfl⟩
      exact ⟨b, first, bs', ih.mpr rest, rfl⟩

section Pairwise

variable {α β : Type} {p : α → Prop} {q : β → Prop} {as : List α} {bs : List β}

theorem exists_mem_of_forall₂ {r : α → β → Prop} (h : List.Forall₂ r as bs) {a : α}
    (ha : a ∈ as) : ∃ b ∈ bs, r a b := by
  induction h with
  | nil => cases ha
  | cons head _ ih =>
    rcases List.mem_cons.mp ha with rfl | ha
    · exact ⟨_, List.mem_cons_self, head⟩
    · obtain ⟨b, hb, related⟩ := ih ha
      exact ⟨b, List.mem_cons_of_mem _ hb, related⟩

theorem exists_mem_iff_of_forall₂ (h : List.Forall₂ (fun a b => p a ↔ q b) as bs) :
    (∃ a ∈ as, p a) ↔ ∃ b ∈ bs, q b := by
  induction h with
  | nil => simp
  | cons head _ ih => simp only [List.exists_mem_cons_iff, head, ih]

theorem forall_mem_iff_of_forall₂ (h : List.Forall₂ (fun a b => p a ↔ q b) as bs) :
    (∀ a ∈ as, p a) ↔ ∀ b ∈ bs, q b := by
  induction h with
  | nil => simp
  | cons head _ ih => simp only [List.forall_mem_cons, head, ih]

end Pairwise

/-! ## Fields -/

namespace Config

/-- The elements of a list in a field; a field that holds no list has none. -/
def elements (config : Json) (field : String) : List Json :=
  match config.member? field with
  | some (.array vs) => vs
  | _ => []

variable {config : Json} {field : String}

theorem present?_eq_some_iff {v : Json} :
    present? config field = some v ↔ config.member? field = some v ∧ v ≠ .null := by
  unfold present?
  split
  · rename_i null
    simp only [null, reduceCtorEq, Option.some.injEq, false_iff, not_and, not_not]
    exact Eq.symm
  · rename_i found
    constructor
    · intro h
      refine ⟨h, ?_⟩
      rintro rfl
      exact found h
    · exact And.left

theorem items_eq_ok {vs : List Json} (h : items config field = .ok vs) :
    vs = elements config field := by
  unfold items at h
  split at h
  · rename_i absent
    obtain rfl := Except.ok.inj h
    unfold elements
    split
    · rename_i found
      rw [present?_eq_some_iff.mpr ⟨found, Json.noConfusion⟩] at absent
      cases absent
    · rfl
  · rename_i found
    obtain rfl := Except.ok.inj h
    rw [elements, (present?_eq_some_iff.mp found).1]
  · cases h

theorem number?_eq_ok {r : Option Binary64} (h : number? config field = .ok r) :
    (present? config field = none ∧ r = none) ∨
      ∃ n, config.member? field = some (.number n) ∧ r = some n.toBinary64 := by
  unfold number? at h
  split at h
  · rename_i absent
    exact .inl ⟨absent, (Except.ok.inj h).symm⟩
  · rename_i n found
    exact .inr ⟨n, (present?_eq_some_iff.mp found).1, (Except.ok.inj h).symm⟩
  · cases h

end Config

/-! ## Percentages

Integers of at most 53 bits are rollouts without rounding, and all others lie far outside. -/

namespace Binary64

theorem atLeast_finite {x : Finite64} {n : Int} :
    (finite x).atLeast n = true ↔ (n : ℚ) ≤ x.value := by
  rw [Finite64.int_le_value_iff]
  exact decide_eq_true_iff

theorem atMost_finite {x : Finite64} {n : Int} :
    (finite x).atMost n = true ↔ x.value ≤ n := by
  rw [Finite64.value_le_int_iff]
  exact decide_eq_true_iff

theorem isZero_finite {x : Finite64} : (finite x).isZero = true ↔ x.value = 0 := by
  have zero := Finite64.value_eq_int_iff (x := x) (n := 0)
  rw [Int.cast_zero, Int.zero_mul, Finite64.units_eq_zero_iff] at zero
  rw [zero]
  exact beq_iff_eq

end Binary64

theorem Context.bucket_lt (ctx : Context) : ctx.bucket < 100 := by
  rw [bucket_eq]
  exact Nat.mod_lt _ (by decide)

/-- A finite rollout admits the buckets up to its value, and none if it is not positive. -/
theorem rolloutAdmits_finite_iff {x : Finite64} {bucket : Nat} :
    rolloutAdmits (.finite x) bucket = true ↔ 0 < x.value ∧ (bucket : ℚ) ≤ x.value := by
  have low : (0 : ℚ) ≤ bucket := Nat.cast_nonneg bucket
  rw [rolloutAdmits, Bool.and_eq_true, Bool.not_eq_true', ← Bool.not_eq_true,
    Binary64.isZero_finite, Binary64.atLeast_finite, Int.cast_natCast]
  constructor
  · rintro ⟨nonzero, bound⟩
    exact ⟨lt_of_le_of_ne (le_trans low bound) (Ne.symm nonzero), bound⟩
  · rintro ⟨positive, bound⟩
    exact ⟨ne_of_gt positive, bound⟩

/-- The last bucket is `99`, so a rollout from there on admits all contexts. -/
theorem rolloutAdmits_of_wide {x : Finite64} (wide : 99 ≤ x.value) (ctx : Context) :
    rolloutAdmits (.finite x) ctx.bucket = true := by
  have bucket : ctx.bucket ≤ 99 := Nat.le_of_lt_succ ctx.bucket_lt
  rw [rolloutAdmits_finite_iff]
  constructor
  · exact lt_of_lt_of_le (by norm_num) wide
  · calc (ctx.bucket : ℚ) ≤ 99 := by exact_mod_cast bucket
      _ ≤ x.value := wide

namespace Segment

theorem isPercentage_finite {y : Finite64} :
    isPercentage (.finite y) = true ↔ 0 ≤ y.value ∧ y.value ≤ 100 := by
  rw [isPercentage, Bool.and_eq_true, Binary64.atLeast_finite, Binary64.atMost_finite]
  exact_mod_cast Iff.rfl

theorem isPercentage_hundred : isPercentage (.ofInt 100) = true := by
  obtain ⟨x, finite, value⟩ := Binary64.ofInt_of_small (n := 100) (by decide)
  rw [finite, isPercentage_finite, value]
  constructor <;> norm_num

/-- An integer of more than 53 bits is no percentage after rounding. -/
theorem not_isPercentage_of_large {n : Int} (large : 2 ^ 53 ≤ n.natAbs) :
    isPercentage (.ofInt n) = false := by
  rcases Binary64.ofInt_of_large large with infinite | ⟨y, finite, sign, magnitude⟩
  · rw [infinite]
    cases decide (n < 0) <;> rfl
  · rw [finite, Bool.eq_false_iff, Ne, isPercentage, Bool.and_eq_true, Binary64.atLeast_finite,
      Binary64.atMost_finite, Finite64.int_le_value_iff, Finite64.value_le_int_iff]
    rintro ⟨low, high⟩
    have pos := Finite64.unitsPerOne_pos
    generalize Finite64.unitsPerOne = one at low high pos magnitude
    unfold Finite64.units at low high
    cases negative : y.negative with
    | false =>
      simp only [negative, Bool.false_eq_true, if_false] at high
      omega
    | true =>
      simp only [negative, if_true] at low
      omega

theorem exact_of_percentage {n : Json.Number} (h : isPercentage n.toBinary64 = true) :
    ∃ y, n.toBinary64 = .finite y ∧ y.value = n.value := by
  cases n with
  | float x => exact ⟨x, rfl, rfl⟩
  | int n inRange =>
    by_cases small : n.natAbs < 2 ^ 53
    · exact Binary64.ofInt_of_small small
    · rw [Json.Number.toBinary64, not_isPercentage_of_large (Nat.le_of_not_lt small)] at h
      cases h

/-- The rollout of a config is a percentage if its exact value is. -/
theorem isPercentage_iff {n : Json.Number} :
    isPercentage n.toBinary64 = true ↔ 0 ≤ n.value ∧ n.value ≤ 100 := by
  constructor
  · intro h
    obtain ⟨y, finite, value⟩ := exact_of_percentage h
    rwa [finite, isPercentage_finite, value] at h
  · intro h
    have exact : ∃ y, n.toBinary64 = .finite y ∧ y.value = n.value := by
      cases n with
      | float x => exact ⟨x, rfl, rfl⟩
      | int n inRange =>
        rw [Json.Number.value] at h
        have low : 0 ≤ n := by exact_mod_cast h.1
        have high : n ≤ 100 := by exact_mod_cast h.2
        exact Binary64.ofInt_of_small (by omega)
    obtain ⟨y, finite, value⟩ := exact
    rw [finite, isPercentage_finite, value]
    exact h

/-- An accepted rollout is compared by its exact value. -/
theorem rolloutAdmits_iff {n : Json.Number} (h : isPercentage n.toBinary64 = true) {bucket : Nat} :
    rolloutAdmits n.toBinary64 bucket = true ↔ 0 < n.value ∧ (bucket : ℚ) ≤ n.value := by
  obtain ⟨y, finite, value⟩ := exact_of_percentage h
  rw [finite, rolloutAdmits_finite_iff, value]

end Segment

/-! ## Fragments -/

namespace Condition

theorem outcome_compile (config : Json) :
    (compile config).outcome =
      match parts? config with
      | none => .error (.invalidCondition config)
      | some (property, op, value) =>
        match Comparand.ofJson value with
        | .error _ => .error (.invalidCondition config)
        | .ok value => .ok ⟨property, .ofName op, value⟩ := by
  unfold compile
  cases parts? config with
  | none => rfl
  | some parts =>
    obtain ⟨property, op, value⟩ := parts
    dsimp only
    cases Comparand.ofJson value with
    | error e => rfl
    | ok value =>
      dsimp only
      cases (Operator.ofName op).isKnown <;> rfl

theorem parts?_eq_some_iff {config : Json} {property op : String} {value : Json} :
    parts? config = some (property, op, value) ↔
      config.member? "property" = some (.string property) ∧
        config.member? "op" = some (.string op) ∧
        config.member? "value" = some value ∧ value ≠ .null := by
  rw [← Config.present?_eq_some_iff]
  have string : ∀ (field text : String), Config.present? config field = some (.string text) ↔
      config.member? field = some (.string text) := by
    intro field text
    rw [Config.present?_eq_some_iff]
    exact and_iff_left Json.noConfusion
  rw [← string, ← string]
  unfold parts?
  split
  · rename_i hp ho hv
    simp [hp, ho, hv]
  · rename_i other
    constructor
    · intro h
      cases h
    · rintro ⟨hp, ho, hv⟩
      exact absurd hv (other _ _ _ hp ho)

/-- A condition that compiles has its three parts. -/
theorem compile_eq_ok_iff {config : Json} {c : Condition} :
    (compile config).outcome = .ok c ↔
      ∃ op value, parts? config = some (c.property, op, value) ∧
        c.op = .ofName op ∧ Comparand.ofJson value = .ok c.value := by
  rw [outcome_compile]
  constructor
  · intro h
    split at h
    · cases h
    · rename_i property op value parts
      split at h
      · cases h
      · rename_i comparand accepted
        obtain rfl := Except.ok.inj h
        exact ⟨op, value, parts, rfl, accepted⟩
  · rintro ⟨op, value, parts, sameOp, accepted⟩
    simp only [parts, accepted, ← sameOp]

theorem compileAll_eq_ok_iff {configs : List Json} {cs : List Condition} :
    (compileAll configs).outcome = .ok cs ↔
      List.Forall₂ (fun config c => (compile config).outcome = .ok c) configs cs :=
  Report.traversal_eq_ok_iff compile compileAll rfl fun _ _ => rfl

theorem forall₂_of_compileAll {configs : List Json} {cs : List Condition}
    (h : (compileAll configs).outcome = .ok cs) :
    List.Forall₂ (fun config c => (compile config).outcome = .ok c) configs cs :=
  compileAll_eq_ok_iff.mp h

end Condition

namespace Segment

theorem isPercentage_defaultRollout : isPercentage defaultRollout = true := by
  decide +kernel

/-- What a segment compiles from. -/
theorem compile_eq_ok_iff {config : Json} {s : Segment} :
    (compile config).outcome = .ok s ↔
      ∃ fragments name rollout, Config.items config "conditions" = .ok fragments ∧
        (Condition.compileAll fragments).outcome = .ok s.conditions ∧
        Config.string? config "name" = .ok name ∧ s.name = name.getD defaultName ∧
        Config.number? config "rollout" = .ok rollout ∧
        s.rollout = some (rollout.getD defaultRollout) ∧
        isPercentage (rollout.getD defaultRollout) = true := by
  unfold compile
  simp only [Report.outcome_bind_eq_ok_iff, Report.outcome_ofExcept]
  constructor
  · rintro ⟨fragments, items, conditions, compiled, name, string, rollout, number, rest⟩
    split at rest
    · rename_i percentage
      have same : s = ⟨name.getD defaultName, conditions, some (rollout.getD defaultRollout)⟩ := by
        split at rest
        · exact (Except.ok.inj rest).symm
        · simp only [Report.outcome_bind_eq_ok_iff, Report.outcome_pure] at rest
          obtain ⟨_, -, same⟩ := rest
          exact (Except.ok.inj same).symm
      subst same
      exact ⟨fragments, name, rollout, items, compiled, string, rfl, number, rfl, percentage⟩
    · rw [Report.outcome_bind] at rest
      cases rest
  · rintro ⟨fragments, name, rollout, items, compiled, string, sameName, number, sameRollout,
      percentage⟩
    refine ⟨fragments, items, s.conditions, compiled, name, string, rollout, number, ?_⟩
    have same : s = ⟨name.getD defaultName, s.conditions, some (rollout.getD defaultRollout)⟩ := by
      rw [← sameName, ← sameRollout]
    rw [if_pos percentage, ← same]
    cases config.isObject <;> rfl

/-- What a segment that compiles was read from. -/
theorem compile_eq_ok {config : Json} {s : Segment} (h : (compile config).outcome = .ok s) :
    (Condition.compileAll (Config.elements config "conditions")).outcome = .ok s.conditions ∧
      ∃ rollout, Config.number? config "rollout" = .ok rollout ∧
        s.rollout = some (rollout.getD defaultRollout) ∧
        isPercentage (rollout.getD defaultRollout) = true := by
  obtain ⟨fragments, name, rollout, items, compiled, -, -, number, same, percentage⟩ :=
    compile_eq_ok_iff.mp h
  rw [← Config.items_eq_ok items]
  exact ⟨compiled, rollout, number, same, percentage⟩

theorem compileAll_eq_ok_iff {configs : List Json} {ss : List Segment} :
    (compileAll configs).outcome = .ok ss ↔
      List.Forall₂ (fun config s => (compile config).outcome = .ok s) configs ss :=
  Report.traversal_eq_ok_iff compile compileAll rfl fun _ _ => rfl

theorem forall₂_of_compileAll {configs : List Json} {ss : List Segment}
    (h : (compileAll configs).outcome = .ok ss) :
    List.Forall₂ (fun config s => (compile config).outcome = .ok s) configs ss :=
  compileAll_eq_ok_iff.mp h

end Segment

/-- What a feature compiles from. -/
theorem Feature.compile_eq_ok_iff {name : String} {config : Json} {f : Feature} :
    (compile name config).outcome = .ok f ↔
      ∃ fragments, Config.items config "segments" = .ok fragments ∧
        (Segment.compileAll fragments).outcome = .ok f.segments ∧ f.name = name := by
  unfold compile
  simp only [Report.outcome_bind_eq_ok_iff, Report.outcome_ofExcept, Report.outcome_pure]
  constructor
  · rintro ⟨fragments, items, segments, compiled, _, -, same⟩
    obtain rfl := Except.ok.inj same
    exact ⟨fragments, items, compiled, rfl⟩
  · rintro ⟨fragments, items, compiled, rfl⟩
    exact ⟨fragments, items, f.segments, compiled, (), rfl, rfl⟩

/-- The segments of a feature that compiles were compiled in turn. -/
theorem Feature.compile_eq_ok {name : String} {config : Json} {f : Feature}
    (h : (compile name config).outcome = .ok f) :
    (Segment.compileAll (Config.elements config "segments")).outcome = .ok f.segments := by
  obtain ⟨fragments, items, compiled, -⟩ := compile_eq_ok_iff.mp h
  rw [← Config.items_eq_ok items]
  exact compiled

end FeatureGate
