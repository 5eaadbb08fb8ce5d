import FeatureGate.Proofs.Records
import FeatureGate.Proofs.Reading
import Mathlib.Tactic.NormNum

/-!
# Two readers of one format

A value can be compiled as a config, or read as the serialized form of a rule. Both readers take a
mapping for the same condition. A feature that is read also compiles if its rollouts are percentages,
and the two differ in the segments without a rollout only: these admit everybody when they are read,
and nobody when they are compiled.
-/

namespace FeatureGate

/-- A traversal whose items succeed under a condition, with a result that is known. -/
theorem forall₂_iff_of_forall₂ {α β γ : Type} {r : α → γ → Prop} {p : β → Prop} {g : β → γ}
    {as : List α} {bs : List β} (h : List.Forall₂ (fun a b => ∀ c, r a c ↔ p b ∧ c = g b) as bs)
    {cs : List γ} : List.Forall₂ r as cs ↔ (∀ b ∈ bs, p b) ∧ cs = bs.map g := by
  induction h generalizing cs with
  | nil => simp
  | cons head _ ih =>
    rw [List.forall₂_cons_left_iff, List.forall_mem_cons, List.map_cons]
    constructor
    · rintro ⟨c, cs, first, rest, rfl⟩
      obtain ⟨passed, rfl⟩ := (head c).mp first
      obtain ⟨all, rfl⟩ := ih.mp rest
      exact ⟨⟨passed, all⟩, rfl⟩
    · rintro ⟨⟨passed, all⟩, rfl⟩
      exact ⟨_, _, (head _).mpr ⟨passed, rfl⟩, ih.mpr ⟨all, rfl⟩, rfl⟩

/-! ## Fields -/

namespace Config

variable {config : Json} {field : String}

theorem items_of_array {vs : List Json} (found : config.member? field = some (.array vs)) :
    items config field = .ok vs := by
  rw [items, present?_eq_some_iff.mpr ⟨found, Json.noConfusion⟩]

theorem elements_of_array {vs : List Json} (found : config.member? field = some (.array vs)) :
    elements config field = vs := by
  rw [elements, found]

theorem string?_of_string {s : String} (found : config.member? field = some (.string s)) :
    string? config field = .ok (some s) := by
  rw [string?, present?_eq_some_iff.mpr ⟨found, Json.noConfusion⟩]

/-- An absent number and a null one are no number for both readers. -/
theorem number?_eq_ok_iff_read {rollout : Option Binary64} :
    number? config field = .ok rollout ↔
      rolloutOfTree? ((config.member? field).map .ofJson) = some rollout := by
  unfold number? present?
  cases config.member? field with
  | none => simp [rolloutOfTree?]
  | some v => cases v <;> simp [rolloutOfTree?, Json.Tree.ofJson, Json.Tree.toBinary64?]

/-- Every feature, segment and condition is written as a mapping. -/
structure OfMappings (v : Json) : Prop where
  feature : v.isObject = true
  segments : ∀ s ∈ elements v "segments", s.isObject = true
  conditions : ∀ s ∈ elements v "segments", ∀ d ∈ elements s "conditions", d.isObject = true

end Config

/-! ## Conditions -/

theorem Condition.compile_eq_ok_iff_read {v : Json} (once : v.KeysOnce)
    (mapping : v.isObject = true) {c : Condition} :
    (compile v).outcome = .ok c ↔ ofTree? (.ofJson v) = some c := by
  rw [compile_eq_ok_iff, ofTree?_ofJson once mapping]
  simp only [parts?_eq_some_iff]
  constructor
  · rintro ⟨op, value, ⟨property, operator, found, -⟩, sameOp, accepted⟩
    exact ⟨op, value, property, operator, found, sameOp, accepted⟩
  · rintro ⟨op, value, property, operator, found, sameOp, accepted⟩
    have present : value ≠ .null := by
      rintro rfl
      cases accepted
    exact ⟨op, value, ⟨property, operator, found, present⟩, sameOp, accepted⟩

theorem Condition.compileAll_of_read {ds : List Json} (once : ∀ d ∈ ds, d.KeysOnce)
    (mappings : ∀ d ∈ ds, d.isObject = true) {cs : List Condition}
    (read : List.Forall₂ (fun d c => ofTree? (.ofJson d) = some c) ds cs) :
    (compileAll ds).outcome = .ok cs := by
  have each : ∀ d ∈ ds, d.KeysOnce ∧ d.isObject = true := fun d hd => ⟨once d hd, mappings d hd⟩
  have both := (List.forall₂_and_left ds cs).mpr ⟨each, read⟩
  exact compileAll_eq_ok_iff.mpr <| both.imp fun d c h =>
    (compile_eq_ok_iff_read h.1.1 h.1.2).mpr h.2

/-! ## Segments -/

namespace Segment

/-- Every rollout that is there is a percentage. -/
def InRange (s : Segment) : Prop :=
  ∀ r, s.rollout = some r → ∃ x, r = .finite x ∧ 0 ≤ x.value ∧ x.value ≤ 100

/-- The segment with a rollout of zero in place of none. -/
def closedByDefault (s : Segment) : Segment := { s with rollout := some (s.rollout.getD .zero) }

/-- A segment that nothing else closes is closed by the missing rollout. -/
theorem not_admits_closedByDefault {s : Segment} (h : s.rollout = none) (ctx : Context) :
    s.closedByDefault.admits ctx = false := by
  have zero : rolloutAdmits .zero ctx.bucket = false := rfl
  simp only [closedByDefault, admits, h, Option.getD_none, zero, Bool.and_false]

theorem isPercentage_iff_finite {r : Binary64} :
    isPercentage r = true ↔ ∃ x, r = .finite x ∧ 0 ≤ x.value ∧ x.value ≤ 100 := by
  cases r with
  | finite x => simp [isPercentage_finite]
  | nan => simp [isPercentage, Binary64.atLeast]
  | infinity negative => cases negative <;> simp [isPercentage, Binary64.atLeast, Binary64.atMost]

theorem inRange_iff_isPercentage {s : Segment} :
    s.InRange ↔ isPercentage (s.rollout.getD defaultRollout) = true := by
  unfold InRange
  cases s.rollout with
  | none => simp [isPercentage_defaultRollout]
  | some r => simp [isPercentage_iff_finite]

theorem compile_eq_ok_iff_of_read {v : Json} (once : v.KeysOnce) (mapping : v.isObject = true)
    (conditions : ∀ d ∈ Config.elements v "conditions", d.isObject = true) {s : Segment}
    (read : ofTree? (.ofJson v) = some s) (t : Segment) :
    (compile v).outcome = .ok t ↔ s.InRange ∧ t = s.closedByDefault := by
  obtain ⟨name, ⟨ds, list, each⟩, rollout⟩ := (ofTree?_ofJson once mapping).mp read
  rw [Config.elements_of_array list] at conditions
  have compiled := Condition.compileAll_of_read (once.member? list).items conditions each
  have items := Config.items_of_array list
  have string := Config.string?_of_string name
  have number := Config.number?_eq_ok_iff_read.mpr rollout
  rw [compile_eq_ok_iff, inRange_iff_isPercentage]
  constructor
  · rintro ⟨ds', name', rollout', items', compiled', string', sameName, number', sameRollout,
      percentage⟩
    obtain rfl := Except.ok.inj (items.symm.trans items')
    obtain rfl := Except.ok.inj (string.symm.trans string')
    obtain rfl := Except.ok.inj (number.symm.trans number')
    have sameConditions := Except.ok.inj (compiled.symm.trans compiled')
    refine ⟨percentage, ?_⟩
    cases t
    simp_all [closedByDefault, defaultRollout]
  · rintro ⟨percentage, rfl⟩
    exact ⟨ds, some s.name, s.rollout, items, compiled, string, rfl, number, rfl, percentage⟩

end Segment

/-! ## Features -/

namespace Feature

def closedByDefault (f : Feature) : Feature :=
  { f with segments := f.segments.map Segment.closedByDefault }

theorem compile_eq_ok_iff_of_read {v : Json} (once : v.KeysOnce) (mappings : Config.OfMappings v)
    {g : Feature} (read : ofTree? (.ofJson v) = some g) (f : Feature) :
    (compile g.name v).outcome = .ok f ↔
      (∀ s ∈ g.segments, s.InRange) ∧ f = g.closedByDefault := by
  obtain ⟨-, ss, list, each⟩ := (ofTree?_ofJson once mappings.feature).mp read
  have segments := mappings.segments
  have conditions := mappings.conditions
  rw [Config.elements_of_array list] at segments conditions
  have items := Config.items_of_array list
  have known : ∀ s ∈ ss, s.KeysOnce ∧ s.isObject = true ∧
      ∀ d ∈ Config.elements s "conditions", d.isObject = true :=
    fun s hs => ⟨(once.member? list).items s hs, segments s hs, conditions s hs⟩
  have both := (List.forall₂_and_left ss g.segments).mpr ⟨known, each⟩
  have compiled : List.Forall₂ (fun s segment => ∀ t, (Segment.compile s).outcome = .ok t ↔
      segment.InRange ∧ t = segment.closedByDefault) ss g.segments :=
    both.imp fun _ _ h => Segment.compile_eq_ok_iff_of_read h.1.1 h.1.2.1 h.1.2.2 h.2
  rw [compile_eq_ok_iff]
  constructor
  · rintro ⟨ss', items', outcome, sameName⟩
    obtain rfl := Except.ok.inj (items.symm.trans items')
    obtain ⟨inRange, same⟩ :=
      (forall₂_iff_of_forall₂ compiled).mp (Segment.compileAll_eq_ok_iff.mp outcome)
    refine ⟨inRange, ?_⟩
    cases f
    simp_all [closedByDefault]
  · rintro ⟨inRange, rfl⟩
    have outcome := (forall₂_iff_of_forall₂ compiled).mpr ⟨inRange, rfl⟩
    exact ⟨ss, items, Segment.compileAll_eq_ok_iff.mpr outcome, rfl⟩

end Feature

/-- A mapping compiles to a condition exactly if that condition is read from it. A feature that is
read from mappings compiles exactly if all its rollouts are percentages, and then to the same
feature with every rollout that is absent turned into one of zero. -/
theorem readers_agree {v : Json} (once : v.KeysOnce) :
    (v.isObject = true → ∀ c : Condition,
      (Condition.compile v).outcome = .ok c ↔ Condition.ofTree? (.ofJson v) = some c) ∧
    (Config.OfMappings v → ∀ g, Feature.ofTree? (.ofJson v) = some g →
      ((∃ f, (Feature.compile g.name v).outcome = .ok f) ↔ ∀ s ∈ g.segments, s.InRange) ∧
      ∀ f, (Feature.compile g.name v).outcome = .ok f → f = g.closedByDefault) := by
  constructor
  · intro mapping c
    exact Condition.compile_eq_ok_iff_read once mapping
  · intro mappings g read
    have compiled := Feature.compile_eq_ok_iff_of_read once mappings read
    constructor
    · constructor
      · rintro ⟨f, outcome⟩
        exact ((compiled f).mp outcome).1
      · intro inRange
        exact ⟨_, (compiled _).mpr ⟨inRange, rfl⟩⟩
    · intro f outcome
      exact ((compiled f).mp outcome).2

theorem greatest_inRange : -2 ^ 63 ≤ (2 ^ 64 - 1 : Int) ∧ (2 ^ 64 - 1 : Int) < 2 ^ 64 := by decide

theorem fifty_inRange : -2 ^ 63 ≤ (50 : Int) ∧ (50 : Int) < 2 ^ 64 := by decide

/-- A condition on the greatest integer, under an operator of an unknown name. -/
def Config.beyondAll : Json :=
  .object [("note", .null), ("op", .string "gt"), ("property", .string "p"),
    ("value", .number (.int (2 ^ 64 - 1) greatest_inRange))]

/-- A segment without a rollout, and one with a rollout to one half. -/
def Config.openAndHalf : Json :=
  .object [("name", .string "f"), ("segments", .array [
    .object [("conditions", .array [Config.beyondAll]), ("name", .string "open")],
    .object [("conditions", .array []), ("name", .string "half"),
      ("rollout", .number (.int 50 fifty_inRange))]])]

def Condition.beyondAll : Condition := ⟨"p", .unknown "gt", .scalar (.float (.ofInt (2 ^ 64 - 1)))⟩

def Feature.openAndHalf : Feature :=
  ⟨"f", [⟨"open", [.beyondAll], none⟩, ⟨"half", [], some (.ofInt 50)⟩]⟩

theorem Config.keysOnce_beyondAll : beyondAll.KeysOnce := by
  refine .object _ (by decide) ?_
  simp only [List.forall_mem_cons]
  exact ⟨.null, .string _, .string _, .number _, List.forall_mem_nil _⟩

theorem Config.keysOnce_openAndHalf : openAndHalf.KeysOnce := by
  have opened : (Json.object [("conditions", .array [beyondAll]),
      ("name", .string "open")]).KeysOnce := by
    refine .object _ (by decide) ?_
    simp only [List.forall_mem_cons]
    exact ⟨.array _ (List.forall_mem_singleton.mpr keysOnce_beyondAll), .string _, List.forall_mem_nil _⟩
  have half : (Json.object [("conditions", .array []), ("name", .string "half"),
      ("rollout", .number (.int 50 fifty_inRange))]).KeysOnce := by
    refine .object _ (by decide) ?_
    simp only [List.forall_mem_cons]
    exact ⟨.array _ (List.forall_mem_nil _), .string _, .number _, List.forall_mem_nil _⟩
  refine .object _ (by decide) ?_
  simp only [List.forall_mem_cons]
  refine ⟨.string _, .array _ ?_, List.forall_mem_nil _⟩
  simp only [List.forall_mem_cons]
  exact ⟨opened, half, List.forall_mem_nil _⟩

theorem readers_agree_openAndHalf :
    (Condition.compile Config.beyondAll).outcome = .ok .beyondAll ∧
      Feature.ofTree? (.ofJson Config.openAndHalf) = some .openAndHalf ∧
      ∃ f, (Feature.compile "f" Config.openAndHalf).outcome = .ok f ∧
        f = Feature.openAndHalf.closedByDefault := by
  have readCondition : Condition.ofTree? (.ofJson Config.beyondAll) = some .beyondAll := by rfl
  have read : Feature.ofTree? (.ofJson Config.openAndHalf) = some .openAndHalf := by rfl
  have condition := (readers_agree Config.keysOnce_beyondAll).1 rfl .beyondAll
  have mappings : Config.OfMappings Config.openAndHalf := by
    refine ⟨rfl, ?_, ?_⟩
    · simp [Config.openAndHalf, Config.elements, Json.member?, findEntry, Json.isObject]
    · simp [Config.openAndHalf, Config.elements, Json.member?, findEntry, Json.isObject,
        Config.beyondAll]
  obtain ⟨compiles, same⟩ :=
    (readers_agree Config.keysOnce_openAndHalf).2 mappings .openAndHalf read
  have inRange : ∀ s ∈ Feature.openAndHalf.segments, s.InRange := by
    refine List.forall_mem_cons.mpr ⟨?_, List.forall_mem_singleton.mpr ?_⟩
    · rintro _ ⟨⟩
    · intro r found
      obtain rfl : Binary64.ofInt 50 = r := Option.some.inj found
      obtain ⟨x, finite, value⟩ := Binary64.ofInt_of_small (n := 50) (by decide)
      exact ⟨x, finite, by norm_num [value], by norm_num [value]⟩
  obtain ⟨f, outcome⟩ := compiles.mpr inRange
  exact ⟨condition.mpr readCondition, read, f, outcome, same f outcome⟩

end FeatureGate
