import FeatureGate.Proofs.Interleaving

/-!
# Coherence of the store

The configs that the writes of a run have stored form its ledger, in their order, and the revision of
a config is its place in the ledger. What is stored and what callers hold in their hands is
`Issued` by the ledger, so an equal revision means an equal config, even after the store was cleared
and filled again; from this `Coherent` follows for every run.
-/

namespace FeatureGate.Interleaving

variable {ledger : List (String × Json)}

/-- Whether a config is the one that the ledger has at its revision, counted from one. -/
def Issued (ledger : List (String × Json)) (name : String) (entry : StoredConfig) : Prop :=
  ∃ k, entry.revision = k + 1 ∧ ledger[k]? = some (name, entry.config)

theorem Issued.grow {name : String} {entry : StoredConfig} (h : Issued ledger name entry)
    (more : List (String × Json)) : Issued (ledger ++ more) name entry := by
  obtain ⟨k, hk, found⟩ := h
  refine ⟨k, hk, ?_⟩
  rw [List.getElem?_append_left (List.getElem?_eq_some_iff.mp found).1, found]

theorem Issued.revision_le {name : String} {entry : StoredConfig} (h : Issued ledger name entry) :
    entry.revision ≤ ledger.length := by
  obtain ⟨k, hk, found⟩ := h
  have := (List.getElem?_eq_some_iff.mp found).1
  omega

/-- A revision is issued once: it fixes the name and the config. -/
theorem Issued.unique {a b : String} {x y : StoredConfig} (hx : Issued ledger a x)
    (hy : Issued ledger b y) (same : x.revision = y.revision) : a = b ∧ x = y := by
  obtain ⟨j, hj, foundX⟩ := hx
  obtain ⟨k, hk, foundY⟩ := hy
  have index : j = k := by omega
  subst index
  have pair := Option.some.inj (foundX.symm.trans foundY)
  cases x
  cases y
  simp_all

/-! ## The store -/

/-- The store as the ledger has it, with a cache that holds nothing but what the stored configs
compile to. -/
structure Recorded (ledger : List (String × Json)) (st : Store) : Prop where
  last : st.lastRevision = ledger.length
  stored : ∀ name entry, st.configs.get? name = some entry → Issued ledger name entry
  sound : ∀ name c, st.compiled.get? name = some c →
    ∃ entry, st.configs.get? name = some entry ∧ compilation name entry.config = .ok c.feature

theorem recorded_empty : Recorded [] .empty where
  last := rfl
  stored := by intro name entry h; simp [Store.empty] at h
  sound := by intro name c h; simp [Store.empty] at h

theorem Recorded.append_nil {st : Store} (h : Recorded ledger st) : Recorded (ledger ++ []) st := by
  rw [List.append_nil]
  exact h

theorem Recorded.insert {st : Store} (h : Recorded ledger st) (name : String) (config : Json) :
    Recorded (ledger ++ [(name, config)]) (st.insert name config) where
  last := by simp [Store.insert, h.last]
  stored := by
    intro other entry found
    rw [Store.insert, KeyMap.get?_insert] at found
    split at found
    · rename_i same
      subst same
      obtain rfl := Option.some.inj found
      exact ⟨st.lastRevision, rfl, by simp [h.last]⟩
    · exact (h.stored other entry found).grow _
  sound := by
    intro other c found
    rw [Store.insert, KeyMap.get?_erase] at found
    split at found
    · cases found
    · rename_i differs
      obtain ⟨entry, he, hc⟩ := h.sound other c found
      exact ⟨entry, by simp [Store.insert, KeyMap.get?_insert, differs, he], hc⟩

theorem Recorded.insertMany {st : Store} (h : Recorded ledger st)
    (entries : List (String × Json)) : Recorded (ledger ++ entries) (st.insertMany entries) := by
  induction entries generalizing ledger st with
  | nil => simpa [Store.insertMany] using h
  | cons e rest ih =>
    have next := ih (h.insert e.1 e.2)
    simpa only [Store.insertMany, List.foldl_cons, List.append_assoc, List.singleton_append]
      using next

/-- Clearing keeps the count of revisions, so that none is issued again. -/
theorem Recorded.clear {st : Store} (h : Recorded ledger st) : Recorded ledger st.clear where
  last := h.last
  stored := by intro name entry found; simp [Store.clear] at found
  sound := by intro name c found; simp [Store.clear] at found

/-- A snapshot whose revision is the current one is the stored config. -/
theorem Recorded.current {st : Store} (h : Recorded ledger st) {name : String}
    {entry : StoredConfig} (issued : Issued ledger name entry)
    (current : st.isCurrent name entry.revision = true) : st.configs.get? name = some entry := by
  unfold Store.isCurrent at current
  cases found : st.configs.get? name with
  | none => simp [found] at current
  | some stored =>
    simp only [found, beq_iff_eq] at current
    rw [((h.stored name stored found).unique issued current).2]

theorem Recorded.keep {st : Store} (h : Recorded ledger st) {name : String}
    {entry : StoredConfig} {c : Compiled} (found : st.configs.get? name = some entry)
    (compiles : compilation name entry.config = .ok c.feature) :
    Recorded ledger { st with compiled := st.compiled.insert name c } where
  last := h.last
  stored := h.stored
  sound := by
    intro other c' kept
    rw [KeyMap.get?_insert] at kept
    split at kept
    · rename_i same
      subst same
      obtain rfl := Option.some.inj kept
      exact ⟨entry, found, compiles⟩
    · exact h.sound other c' kept

/-! ## Steps and runs -/

/-- What callers hold in their hands was issued, and compiled from what was issued. -/
def Stage.Sound (ledger : List (String × Json)) : Stage → Prop
  | snapshot name _ entry => Issued ledger name entry
  | offering name _ entry c =>
    Issued ledger name entry ∧ compilation name entry.config = .ok c.feature
  | _ => True

theorem Stage.Sound.grow {s : Stage} (h : s.Sound ledger) (more : List (String × Json)) :
    s.Sound (ledger ++ more) := by
  cases s with
  | snapshot => exact Issued.grow h more
  | offering => exact ⟨h.1.grow more, h.2⟩
  | begun | judging | returned => trivial

theorem Stage.sound_found (name : String) (c : Compiled) (q : Question) :
    (Stage.found name c q).Sound ledger := by
  cases q <;> trivial

/-- The entries that one step of a call stores. -/
def Stage.stores (m : RuleManager) : Stage → List (String × Json)
  | begun (.write w) =>
    match w.accepted m.settings.validateOnAdd with
    | .ok entries => entries
    | .error _ => []
  | _ => []

theorem Step.recorded {m m' : RuleManager} {s t : Stage} (h : Step m s t m')
    (store : Recorded ledger m.store) (sound : s.Sound ledger) :
    Recorded (ledger ++ s.stores m) m'.store ∧ t.Sound (ledger ++ s.stores m) := by
  cases h with
  | wrote w =>
    refine ⟨?_, trivial⟩
    simp only [Stage.stores, RuleManager.written]
    cases w.accepted m.settings.validateOnAdd with
    | error e => exact store.append_nil
    | ok entries => exact store.insertMany entries
  | cleared => exact ⟨store.clear.append_nil, trivial⟩
  | validated | absent | failed | judged | rested => exact ⟨store.append_nil, trivial⟩
  | hit name q c _ | outrun name q _ _ c _ _ | stale name q _ c _ =>
    exact ⟨store.append_nil, Stage.sound_found name c q⟩
  | looked name q entry configured =>
    have issued := store.stored name entry configured
    exact ⟨store.append_nil, issued.grow []⟩
  | compiled name q entry f compiles => exact ⟨store.append_nil, Issued.grow sound [], compiles⟩
  | kept name q entry c current =>
    have kept := store.keep (store.current sound.1 current) sound.2
    exact ⟨kept.append_nil, Stage.sound_found name c q⟩

namespace World

/-- The entries that a move stores. -/
def stores (w : World) : Move → List (String × Json)
  | .begin _ => []
  | .advance i =>
    match w.calls[i]? with
    | none => []
    | some s => s.stores w.manager

/-- All entries that the writes of a run store, in order. -/
def written (w : World) : List Move → List (String × Json)
  | [] => []
  | v :: moves => w.stores v ++ (w.move v).written moves

structure Sound (ledger : List (String × Json)) (w : World) : Prop where
  store : Recorded ledger w.manager.store
  calls : ∀ s ∈ w.calls, s.Sound ledger

theorem sound_start (builder : ContextBuilder) (settings : ManagerSettings) :
    (start builder settings).Sound [] where
  store := recorded_empty
  calls := by intro s h; simp [start] at h

theorem Sound.move {w : World} (h : w.Sound ledger) (v : Move) :
    (w.move v).Sound (ledger ++ w.stores v) := by
  cases v with
  | begin r =>
    refine ⟨by simpa [stores, World.move] using h.store, ?_⟩
    intro s hs
    rcases List.mem_append.mp hs with hs | hs
    · exact (h.calls s hs).grow _
    · obtain rfl := List.mem_singleton.mp hs
      trivial
  | advance i =>
    cases hi : w.calls[i]? with
    | none => simpa [World.move, stores, hi] using h
    | some s =>
      obtain ⟨store, sound⟩ :=
        (advance_step s w.manager).recorded h.store (h.calls s (List.mem_of_getElem? hi))
      rw [move_advance hi]
      simp only [stores, hi]
      refine ⟨store, ?_⟩
      intro t ht
      rcases List.mem_or_eq_of_mem_set ht with ht | rfl
      · exact (h.calls t ht).grow _
      · exact sound

theorem Sound.run {w : World} (h : w.Sound ledger) (moves : List Move) :
    (w.run moves).Sound (ledger ++ w.written moves) := by
  induction moves generalizing w ledger with
  | nil => simpa [World.run, World.written] using h
  | cons v moves ih =>
    have next := ih (h.move v)
    simpa only [World.run, World.written, List.foldl_cons, List.append_assoc] using next

theorem sound_run (builder : ContextBuilder) (settings : ManagerSettings) (moves : List Move) :
    ((start builder settings).run moves).Sound ((start builder settings).written moves) := by
  simpa using (sound_start builder settings).run moves

end World

/-! ## Coherence -/

/-- The snapshot that a call holds, with its name. -/
def Stage.snapshot? : Stage → Option (String × StoredConfig)
  | snapshot name _ entry | offering name _ entry _ => some (name, entry)
  | _ => none

theorem Stage.Sound.issued {s : Stage} (h : s.Sound ledger) {name : String} {entry : StoredConfig}
    (holds : s.snapshot? = some (name, entry)) : Issued ledger name entry := by
  cases s with
  | snapshot =>
    obtain ⟨rfl, rfl⟩ := Prod.mk.inj (Option.some.inj holds)
    exact h
  | offering =>
    obtain ⟨rfl, rfl⟩ := Prod.mk.inj (Option.some.inj holds)
    exact h.1
  | begun | judging | returned => cases holds

/-- What holds between the configs, the compiled features, the revisions and the calls in flight. -/
structure Coherent (w : World) : Prop where
  /-- A compiled feature is what the stored config of its name compiles to. -/
  compiled : ∀ name c, w.manager.store.compiled.get? name = some c →
    ∃ entry, w.manager.store.configs.get? name = some entry ∧
      (Feature.compile name entry.config).outcome = .ok c.feature
  compiledCount_le : w.manager.compiledCount ≤ w.manager.size
  distinct : ∀ a b x y, w.manager.store.configs.get? a = some x →
    w.manager.store.configs.get? b = some y → x.revision = y.revision → a = b
  bounded : ∀ name entry, w.manager.store.configs.get? name = some entry →
    entry.revision ≤ w.manager.store.lastRevision
  /-- A stored config with the revision of a snapshot is that snapshot. -/
  snapshot : ∀ s ∈ w.calls, ∀ name entry current, s.snapshot? = some (name, entry) →
    w.manager.store.configs.get? name = some current → current.revision = entry.revision →
    current.config = entry.config
  /-- What was compiled from a config that is no longer the stored one is not kept. -/
  stale : ∀ (i : Nat) name q entry c, w.calls[i]? = some (.offering name q entry c) →
    w.manager.store.configs.get? name ≠ some entry →
    (w.move (.advance i)).manager.store = w.manager.store

theorem Step.offering_stale {m m' : RuleManager} {name : String} {q : Question}
    {entry : StoredConfig} {c : Compiled} {t : Stage} (h : Step m (.offering name q entry c) t m')
    (replaced : m.store.isCurrent name entry.revision = false) : m' = m := by
  cases h with
  | kept _ _ _ _ current => simp [replaced] at current
  | outrun | stale => rfl

theorem World.Sound.coherent {w : World} (h : w.Sound ledger) : Coherent w where
  compiled := by
    intro name c found
    obtain ⟨entry, he, hc⟩ := h.store.sound name c found
    exact ⟨entry, he, compilation_eq_ok_iff.mp hc⟩
  compiledCount_le := by
    apply KeyMap.size_le_of_keys
    intro name c found
    obtain ⟨entry, he, _⟩ := h.store.sound name c found
    exact ⟨entry, he⟩
  distinct := by
    intro a b x y hx hy same
    exact ((h.store.stored a x hx).unique (h.store.stored b y hy) same).1
  bounded := by
    intro name entry found
    rw [h.store.last]
    exact (h.store.stored name entry found).revision_le
  snapshot := by
    intro s hs name entry current holds found same
    have issued := (h.calls s hs).issued holds
    rw [((h.store.stored name current found).unique issued same).2]
  stale := by
    intro i name q entry c hi differs
    have sound := h.calls _ (List.mem_of_getElem? hi)
    have replaced : w.manager.store.isCurrent name entry.revision = false := by
      cases current : w.manager.store.isCurrent name entry.revision with
      | false => rfl
      | true => exact absurd (h.store.current sound.1 current) differs
    rw [World.move_advance hi]
    exact congrArg RuleManager.store ((advance_step _ w.manager).offering_stale replaced)

/-- In every run of any number of callers the store is coherent, and its counter is the number of
configs that were stored, so that it fits in as many bits as that number does. -/
theorem coherent_run (builder : ContextBuilder) (settings : ManagerSettings) (moves : List Move) :
    Coherent ((World.start builder settings).run moves) ∧
      ((World.start builder settings).run moves).manager.store.lastRevision =
        ((World.start builder settings).written moves).length := by
  have sound := World.sound_run builder settings moves
  exact ⟨sound.coherent, sound.store.last⟩

end FeatureGate.Interleaving
