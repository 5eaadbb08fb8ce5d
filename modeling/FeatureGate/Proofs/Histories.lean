import FeatureGate.Proofs.Identity

/-!
# Histories of contexts

A history makes contexts, extends them, copies them, and asks for identities, in any order. An
identity that is kept stays with its context and goes along into copies; an extension drops it.
Beside every history stand the writes that led to each of its contexts. They determine the
attributes, so that no identity depends on what was asked or copied before.
-/

namespace FeatureGate.History

/-- What is done with contexts. An extension takes the place of the context that it extends; a copy
stands beside it. -/
inductive Action where
  | empty
  | ofAttributes (attributes : KeyMap Json)
  | ofEntries (entries : List (String × Json))
  | ofJson (v : Json)
  | extend (i : Nat) (key : String) (value : Json)
  | copy (i : Nat)
  | ask (i : Nat)

/-- The contexts after an action. A value that is no object makes none. -/
def act (contexts : List Context) : Action → List Context
  | .empty => contexts ++ [.empty]
  | .ofAttributes attributes => contexts ++ [.ofAttributes attributes]
  | .ofEntries entries => contexts ++ [.ofAttributes (.ofList entries)]
  | .ofJson v =>
    match Context.ofJson v with
    | .ok ctx => contexts ++ [ctx]
    | .error _ => contexts
  | .extend i key value => contexts.modify i (·.insert key value)
  | .copy i => contexts ++ contexts[i]?.toList.map Context.copy
  | .ask i => contexts.modify i Context.identified

/-- All contexts of a history, in the order in which they were made. -/
def contexts (history : List Action) : List Context := history.foldl act []

/-- What was written into a context, in order. -/
abbrev Writes := List (String × Json)

/-- The value that was written last for a key. -/
def Writes.last? (writes : Writes) (key : String) : Option Json := findEntry key writes.reverse

/-- The writes behind all contexts after an action. To ask writes nothing. -/
def record (writings : List Writes) : Action → List Writes
  | .empty => writings ++ [[]]
  | .ofAttributes attributes => writings ++ [attributes.entries]
  | .ofEntries entries => writings ++ [entries]
  | .ofJson (.object members) => writings ++ [members]
  | .ofJson _ => writings
  | .extend i key value => writings.modify i (· ++ [(key, value)])
  | .copy i => writings ++ writings[i]?.toList
  | .ask _ => writings

/-- The writes behind all contexts of a history. -/
def writings (history : List Action) : List Writes := history.foldl record []

/-! ## Contexts follow their writes -/

section Forall₂

variable {α β : Type} {r : α → β → Prop} {as : List α} {bs : List β}

theorem forall₂_append_one (h : List.Forall₂ r as bs) {a : α} {b : β} (last : r a b) :
    List.Forall₂ r (as ++ [a]) (bs ++ [b]) :=
  List.rel_append h (.cons last .nil)

theorem forall₂_modify (h : List.Forall₂ r as bs) {f : α → α} {g : β → β}
    (step : ∀ a b, r a b → r (f a) (g b)) (i : Nat) :
    List.Forall₂ r (as.modify i f) (bs.modify i g) := by
  induction h generalizing i with
  | nil => cases i <;> exact .nil
  | cons head tail ih =>
    cases i with
    | zero => exact .cons (step _ _ head) tail
    | succ i => exact .cons head (ih i)

theorem rel_getElem? (h : List.Forall₂ r as bs) (i : Nat) : Option.Rel r as[i]? bs[i]? := by
  induction h generalizing i with
  | nil => exact .none
  | cons head tail ih =>
    cases i with
    | zero => exact .some head
    | succ i => exact ih i

end Forall₂

/-- Whether a context came about, and holds what was written. -/
structure Follows (ctx : Context) (writes : Writes) : Prop where
  built : ctx.Built
  attributes : ctx.attributes = .ofList writes

variable {ctx : Context} {writes : Writes}

theorem follows_ofEntries (entries : List (String × Json)) :
    Follows (.ofAttributes (.ofList entries)) entries :=
  ⟨.ofAttributes _, rfl⟩

theorem follows_ofAttributes (attributes : KeyMap Json) :
    Follows (.ofAttributes attributes) attributes.entries :=
  ⟨.ofAttributes _, attributes.ofList_entries.symm⟩

theorem Follows.insert (h : Follows ctx writes) (key : String) (value : Json) :
    Follows (ctx.insert key value) (writes ++ [(key, value)]) := by
  refine ⟨h.built.insert key value, ?_⟩
  have grown : KeyMap.ofList (writes ++ [(key, value)]) = (KeyMap.ofList writes).insert key value :=
    List.foldl_append
  rw [grown, ← h.attributes]
  rfl

theorem Follows.identified (h : Follows ctx writes) : Follows ctx.identified writes :=
  ⟨h.built.identified, h.attributes⟩

theorem Follows.copy (h : Follows ctx writes) : Follows ctx.copy writes := by
  rw [ctx.copy_eq]
  exact h

theorem Follows.get?_eq (h : Follows ctx writes) (key : String) :
    ctx.get? key = writes.last? key := by
  rw [Context.get?, h.attributes, KeyMap.get?_ofList]
  rfl

theorem forall₂_act {cs : List Context} {ws : List Writes} (h : List.Forall₂ Follows cs ws)
    (a : Action) : List.Forall₂ Follows (act cs a) (record ws a) := by
  cases a with
  | empty => exact forall₂_append_one h (follows_ofEntries [])
  | ofAttributes attributes => exact forall₂_append_one h (follows_ofAttributes attributes)
  | ofEntries entries => exact forall₂_append_one h (follows_ofEntries entries)
  | ofJson v =>
    cases v with
    | object members => exact forall₂_append_one h (follows_ofEntries members)
    | null | bool | number | string | array => exact h
  | extend i key value => exact forall₂_modify h (fun _ _ follows => follows.insert key value) i
  | copy i =>
    apply List.rel_append h
    have original := rel_getElem? h i
    generalize cs[i]? = found at original
    generalize ws[i]? = written at original
    cases original with
    | none => exact .nil
    | some follows => exact .cons follows.copy .nil
  | ask i =>
    have unwritten := forall₂_modify (g := id) h (fun _ _ follows => follows.identified) i
    rwa [List.modify_id] at unwritten

theorem forall₂_contexts (history : List Action) :
    List.Forall₂ Follows (contexts history) (writings history) := by
  have run : ∀ cs ws, List.Forall₂ Follows cs ws →
      List.Forall₂ Follows (history.foldl act cs) (history.foldl record ws) := by
    induction history with
    | nil => exact fun _ _ h => h
    | cons a history ih => exact fun cs ws h => ih _ _ (forall₂_act h a)
  exact run [] [] .nil

theorem exists_follows {history : List Action} {i : Nat} (h : (contexts history)[i]? = some ctx) :
    ∃ writes, (writings history)[i]? = some writes ∧ Follows ctx writes := by
  have pair := rel_getElem? (forall₂_contexts history) i
  rw [h] at pair
  generalize (writings history)[i]? = found at pair
  cases pair with
  | some follows => exact ⟨_, rfl, follows⟩

/-! ## Contexts that are not extended -/

/-- Whether an action extends the context at a place. -/
def Action.Extends (i : Nat) : Action → Prop
  | .extend j _ _ => j = i
  | _ => False

/-- Only an extension changes the attributes of a context. -/
theorem attributes_act {cs : List Context} {i : Nat} (h : cs[i]? = some ctx) {a : Action}
    (spared : ¬ a.Extends i) :
    ∃ later, (act cs a)[i]? = some later ∧ later.attributes = ctx.attributes := by
  have bound : i < cs.length := (List.getElem?_eq_some_iff.mp h).1
  have appended : ∀ made, (cs ++ made)[i]? = some ctx := by
    intro made
    rw [List.getElem?_append_left bound, h]
  cases a with
  | empty | ofAttributes | ofEntries | copy => exact ⟨ctx, appended _, rfl⟩
  | ofJson v =>
    cases v with
    | object members => exact ⟨ctx, appended _, rfl⟩
    | null | bool | number | string | array => exact ⟨ctx, h, rfl⟩
  | extend j key value =>
    refine ⟨ctx, ?_, rfl⟩
    rw [act, List.getElem?_modify_ne _ _ spared, h]
  | ask j =>
    refine ⟨if j = i then ctx.identified else ctx, ?_, ?_⟩
    · rw [act, List.getElem?_modify, h]
      rfl
    · split <;> rfl

theorem attributes_run {cs : List Context} {i : Nat} (h : cs[i]? = some ctx)
    {later : List Action} (spared : ∀ a ∈ later, ¬ a.Extends i) :
    ∃ ctx', (later.foldl act cs)[i]? = some ctx' ∧ ctx'.attributes = ctx.attributes := by
  induction later generalizing cs ctx with
  | nil => exact ⟨ctx, h, rfl⟩
  | cons a later ih =>
    obtain ⟨first, others⟩ := List.forall_mem_cons.mp spared
    obtain ⟨next, found, same⟩ := attributes_act h first
    obtain ⟨ctx', found', same'⟩ := ih found others
    exact ⟨ctx', found', same'.trans same⟩

/-! ## Identities -/

/-- After every history the identity of every context is that of its present attributes, which hold
for each key what was written last. So contexts of any two histories with the same last writes have
one identity, and a context that is not extended keeps its identity, whatever is done to its
copies. -/
theorem identity_never_stale :
    (∀ (history : List Action) (i : Nat) (ctx : Context), (contexts history)[i]? = some ctx →
      ctx.identity = .ofText (canonicalText ctx.attributes) ∧
        ∃ writes, (writings history)[i]? = some writes ∧ ∀ key, ctx.get? key = writes.last? key) ∧
    (∀ (history history' : List Action) (i i' : Nat) (ctx ctx' : Context)
      (writes writes' : Writes),
      (contexts history)[i]? = some ctx → (writings history)[i]? = some writes →
      (contexts history')[i']? = some ctx' → (writings history')[i']? = some writes' →
      (∀ key, writes.last? key = writes'.last? key) → ctx.identity = ctx'.identity) ∧
    ∀ (history later : List Action) (i : Nat) (ctx : Context),
      (contexts history)[i]? = some ctx → (∀ a ∈ later, ¬ a.Extends i) →
      ∃ ctx', (contexts (history ++ later))[i]? = some ctx' ∧
        ctx'.attributes = ctx.attributes ∧ ctx'.identity = ctx.identity := by
  refine ⟨?_, ?_, ?_⟩
  · intro history i ctx found
    obtain ⟨writes, written, follows⟩ := exists_follows found
    exact ⟨follows.built.identity_eq, writes, written, follows.get?_eq⟩
  · intro history history' i i' ctx ctx' writes writes' found written found' written' last
    obtain ⟨_, listed, follows⟩ := exists_follows found
    obtain rfl := Option.some.inj (listed.symm.trans written)
    obtain ⟨_, listed', follows'⟩ := exists_follows found'
    obtain rfl := Option.some.inj (listed'.symm.trans written')
    have attributes : ctx.attributes = ctx'.attributes := by
      apply KeyMap.ext_get?
      intro key
      exact (follows.get?_eq key).trans ((last key).trans (follows'.get?_eq key).symm)
    rw [follows.built.identity_eq, follows'.built.identity_eq, Context.canonical, attributes,
      Context.canonical]
  · intro history later i ctx found spared
    obtain ⟨ctx', found', attributes⟩ := attributes_run found spared
    have grown : (contexts (history ++ later))[i]? = some ctx' := by
      rw [contexts, List.foldl_append]
      exact found'
    obtain ⟨_, -, follows⟩ := exists_follows found
    obtain ⟨_, -, follows'⟩ := exists_follows grown
    refine ⟨ctx', grown, attributes, ?_⟩
    rw [follows.built.identity_eq, follows'.built.identity_eq, Context.canonical, attributes,
      Context.canonical]

/-- A context is asked for its identity and copied; the copy is overwritten and asked in turn. -/
def overwrittenCopy : List Action :=
  [.ofEntries [("id", .bool true)], .ask 0, .copy 0, .extend 1 "id" (.bool false), .ask 1]

/-- The copy has the identity of a context that was never anything else, and the original has kept
its own. -/
theorem identity_never_stale_overwrittenCopy :
    ∃ original copy written,
      (contexts overwrittenCopy)[0]? = some original ∧
        (contexts overwrittenCopy)[1]? = some copy ∧
        (contexts [.empty, .extend 0 "id" (.bool false)])[0]? = some written ∧
        original.identity = (Context.ofAttributes (.ofList [("id", .bool true)])).identity ∧
        copy.identity = .ofText "\x7b\"id\":false\x7d" ∧ copy.identity = written.identity := by
  obtain ⟨present, last, spared⟩ := identity_never_stale
  let first : Context := .ofAttributes (.ofList [("id", .bool true)])
  let copy : Context := (first.identified.copy.insert "id" (.bool false)).identified
  obtain ⟨original, found, -, identity⟩ :=
    spared [.ofEntries [("id", .bool true)]] (overwrittenCopy.drop 1) 0 first rfl
      (by simp [overwrittenCopy, Action.Extends])
  have text : canonicalText copy.attributes = "\x7b\"id\":false\x7d" := by decide +kernel
  refine ⟨original, copy, Context.empty.insert "id" (.bool false), found, rfl, rfl, identity, ?_,
    ?_⟩
  · rw [(present overwrittenCopy 1 copy rfl).1, text]
  · apply last overwrittenCopy [.empty, .extend 0 "id" (.bool false)] 1 0 _ _
      [("id", .bool true), ("id", .bool false)] [("id", .bool false)] rfl rfl rfl rfl
    intro key
    simp only [Writes.last?, List.reverse_cons, List.reverse_nil, List.nil_append,
      List.singleton_append, findEntry]
    split <;> rfl

end FeatureGate.History
