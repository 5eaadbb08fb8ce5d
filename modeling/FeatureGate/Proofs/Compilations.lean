import FeatureGate.Proofs.Coherence
import FeatureGate.Proofs.FirstKept
import FeatureGate.Proofs.LazyWrites

/-!
# What is compiled, and how often

Successful compilations are numbered in their order. Calls that race may compile one config several
times, but a run whose calls do not overlap compiles every stored config once at most: a snapshot is
compiled only if nothing was kept for its revision, and what was compiled before was kept, unless
another call is about to offer it.
-/

namespace FeatureGate.Interleaving

/-! ## The compilations of a run -/

/-- A successful compilation: the name and the revision of the config, and the result. -/
structure Compilation where
  name : String
  revision : Nat
  result : Compiled

def Compilation.source (e : Compilation) : String × Nat := (e.name, e.revision)

/-- What is compiled by a step from one stage to another. -/
def Stage.made : Stage → Stage → List Compilation
  | snapshot .., offering name _ entry c => [⟨name, entry.revision, c⟩]
  | _, _ => []

namespace World

/-- What a move compiles. -/
def makes (w : World) : Move → List Compilation
  | .begin _ => []
  | .advance i =>
    match w.calls[i]? with
    | none => []
    | some s => s.made (s.advance w.manager).1

/-- All that the questions of a run compile, in order. -/
def made (w : World) : List Move → List Compilation
  | [] => []
  | v :: moves => w.makes v ++ (w.move v).made moves

end World

/-- A step compiles nothing, or it compiles a snapshot and counts the compilation. -/
theorem Step.made_cases {m m' : RuleManager} {s t : Stage} (h : Step m s t m') :
    (s.made t = [] ∧ m'.compilations = m.compilations) ∨
      ∃ name q entry f, s = .snapshot name q entry ∧
        t = .offering name q entry ⟨f, m.compilations + 1⟩ ∧
        m' = { m with compilations := m.compilations + 1 } := by
  cases h with
  | compiled name q entry f => exact .inr ⟨name, q, entry, f, rfl, rfl, rfl⟩
  | wrote w =>
    left
    cases w.accepted m.settings.validateOnAdd <;> exact ⟨rfl, rfl⟩
  | _ => exact .inl ⟨rfl, rfl⟩

namespace World

theorem makes_cases (w : World) (v : Move) :
    (w.makes v = [] ∧ (w.move v).manager.compilations = w.manager.compilations) ∨
      ∃ e, w.makes v = [e] ∧ e.result.serial = w.manager.compilations + 1 ∧
        (w.move v).manager.compilations = w.manager.compilations + 1 := by
  cases v with
  | begin r => exact .inl ⟨rfl, rfl⟩
  | advance i =>
    cases hi : w.calls[i]? with
    | none => simp [makes, move, hi]
    | some s =>
      have step := advance_step s w.manager
      simp only [makes, hi, move_advance hi]
      rcases step.made_cases with nothing | ⟨name, q, entry, f, rfl, offering, counted⟩
      · exact .inl nothing
      · right
        rw [offering, counted]
        exact ⟨_, rfl, rfl, rfl⟩

/-- The serial numbers count the compilations. -/
theorem serials_made (w : World) (moves : List Move) :
    (w.made moves).map (·.result.serial) =
      List.range' (w.manager.compilations + 1) (w.made moves).length := by
  induction moves generalizing w with
  | nil => rfl
  | cons v moves ih =>
    have rest := ih (w.move v)
    rw [made]
    rcases w.makes_cases v with ⟨nothing, same⟩ | ⟨e, one, serial, next⟩
    · rw [nothing, List.nil_append, rest, same]
    · rw [one, List.singleton_append, List.map_cons, List.length_cons, List.range'_succ, rest,
        serial, next]

end World

/-! ## Runs without overlap -/

/-- Whether a call stands between two of its steps. -/
def Stage.underWay : Stage → Bool
  | snapshot .. | offering .. | judging .. => true
  | begun _ | returned _ => false

namespace World

/-- Whether a move leaves no call between two steps while it advances another. -/
def alone (w : World) : Move → Bool
  | .begin _ => true
  | .advance i => (w.calls.eraseIdx i).all fun s => !s.underWay

/-- Whether calls do not overlap: once a call has made its first step, it is the only one to move
until it returns. -/
def sequential (w : World) : List Move → Bool
  | [] => true
  | v :: moves => w.alone v && (w.move v).sequential moves

variable {w : World} {i j : Nat} {s t : Stage}

theorem eq_of_alone (alone : w.alone (.advance i) = true) (h : w.calls[j]? = some s)
    (underWay : s.underWay = true) : j = i := by
  by_cases same : j = i
  · exact same
  · have member : s ∈ w.calls.eraseIdx i := List.mem_eraseIdx_iff_getElem?.mpr ⟨j, same, h⟩
    have waits := List.all_eq_true.mp alone s member
    simp [underWay] at waits

/-- No other call is under way after a step that was made alone. -/
theorem underWay_advance (alone : w.alone (.advance i) = true) (hi : w.calls[i]? = some s)
    (ht : (w.move (.advance i)).calls[j]? = some t) (underWay : t.underWay = true) :
    j = i ∧ t = (s.advance w.manager).1 := by
  by_cases same : j = i
  · subst same
    rw [getElem?_advance hi] at ht
    exact ⟨rfl, (Option.some.inj ht).symm⟩
  · rw [move_advance hi, List.getElem?_set_ne (Ne.symm same)] at ht
    exact absurd (eq_of_alone alone ht underWay) same

theorem underWay_begin {r : Request} (ht : (w.move (.begin r)).calls[j]? = some t)
    (underWay : t.underWay = true) : w.calls[j]? = some t := by
  by_cases old : j < w.calls.length
  · rwa [move, List.getElem?_append_left old] at ht
  · have last := List.mem_of_getElem? (by rwa [move, List.getElem?_append_right (by omega)] at ht)
    obtain rfl := List.mem_singleton.mp last
    cases underWay

end World

/-! ## The stored configs -/

/-- A revision that was issued before a batch is the stored one after it only if it was before, and
then the batch has left the name alone. -/
theorem isCurrent_insertMany {st : Store} {entries : List (String × Json)} {name : String}
    {revision : Nat} (issued : revision ≤ st.lastRevision)
    (current : (st.insertMany entries).isCurrent name revision = true) :
    st.isCurrent name revision = true ∧
      (st.insertMany entries).compiled.get? name = st.compiled.get? name := by
  by_cases listed : ∃ e ∈ entries, e.1 = name
  · obtain ⟨before, config, rest, rfl, last⟩ := Store.exists_last listed
    have stored := (Store.insertMany_listed last st before config).1
    simp only [Store.isCurrent, stored, beq_iff_eq] at current
    omega
  · have unlisted : ∀ e ∈ entries, e.1 ≠ name := fun e he same => listed ⟨e, he, same⟩
    obtain ⟨configs, compiled⟩ := st.insertMany_unlisted unlisted
    rw [Store.isCurrent, configs] at current
    exact ⟨current, compiled⟩

/-- No step makes an issued revision the stored one again, or drops what is compiled of it. -/
theorem Step.current {m m' : RuleManager} {s t : Stage} (h : Step m s t m') {name : String}
    {revision : Nat} (issued : revision ≤ m.store.lastRevision)
    (current : m'.store.isCurrent name revision = true) :
    m.store.isCurrent name revision = true ∧
      ((m.store.compiled.get? name).isSome = true →
        (m'.store.compiled.get? name).isSome = true) := by
  cases h with
  | wrote w =>
    cases batch : w.accepted m.settings.validateOnAdd with
    | error e =>
      rw [batch] at current
      exact ⟨current, id⟩
    | ok entries =>
      rw [batch] at current
      obtain ⟨before, compiled⟩ := isCurrent_insertMany issued current
      refine ⟨before, ?_⟩
      simp only [RuleManager.written, compiled, imp_self]
  | cleared => simp [Store.isCurrent, Store.clear] at current
  | kept other _ _ c =>
    refine ⟨current, ?_⟩
    intro compiled
    dsimp only
    rw [KeyMap.get?_insert]
    split
    · rfl
    · exact compiled
  | validated | absent | hit | looked | failed | compiled | outrun | stale | judged | rested =>
    exact ⟨current, id⟩

theorem Step.lastRevision_le {m m' : RuleManager} {s t : Stage} (h : Step m s t m') :
    m.store.lastRevision ≤ m'.store.lastRevision := by
  cases h with
  | wrote w =>
    cases w.accepted m.settings.validateOnAdd with
    | error e => exact Nat.le_refl _
    | ok entries =>
      simp only [RuleManager.written, Store.lastRevision_insertMany]
      omega
  | _ => exact Nat.le_refl _

/-- Only a look-up leaves a snapshot, and it is that of the stored config. -/
theorem Step.snapshot_inv {m m' : RuleManager} {s t : Stage} (h : Step m s t m') {name : String}
    {q : Question} {entry : StoredConfig} (ht : t = .snapshot name q entry) :
    m' = m ∧ m.store.configs.get? name = some entry ∧ m.store.compiled.get? name = none := by
  cases h with
  | looked _ _ _ configured uncompiled =>
    cases ht
    exact ⟨rfl, configured, uncompiled⟩
  | hit _ p | kept _ p | outrun _ p | stale _ p => cases p <;> cases ht
  | _ => cases ht

/-! ## Each config is compiled once -/

/-- What is true at a moment of a run without overlap, after these compilations. -/
structure Once (made : List Compilation) (w : World) : Prop where
  nodup : (made.map Compilation.source).Nodup
  issued : ∀ e ∈ made, e.revision ≤ w.manager.store.lastRevision
  /-- What was compiled from a stored config is kept, or about to be. -/
  kept : ∀ e ∈ made, w.manager.store.isCurrent e.name e.revision = true →
    (w.manager.store.compiled.get? e.name).isSome = true ∨
      ∃ (i : Nat) (q : Question) (entry : StoredConfig) (c : Compiled),
        w.calls[i]? = some (.offering e.name q entry c) ∧ entry.revision = e.revision
  /-- A snapshot is the stored config, and nothing is compiled from it. -/
  snapshot : ∀ (i : Nat) name q entry, w.calls[i]? = some (.snapshot name q entry) →
    w.manager.store.configs.get? name = some entry ∧
      w.manager.store.compiled.get? name = none

theorem once_start (builder : ContextBuilder) (settings : ManagerSettings) :
    Once [] (.start builder settings) where
  nodup := .nil
  issued := nofun
  kept := nofun
  snapshot := nofun

namespace Once

variable {made : List Compilation} {ledger : List (String × Json)} {w : World}

theorem begin (h : Once made w) (r : Request) : Once made (w.move (.begin r)) where
  nodup := h.nodup
  issued := h.issued
  kept := by
    intro e he current
    rcases h.kept e he current with compiled | ⟨i, q, entry, c, turn, revision⟩
    · exact .inl compiled
    · exact .inr ⟨i, q, entry, c, World.getElem?_move turn (.begin r), revision⟩
  snapshot := by
    intro i name q entry turn
    exact h.snapshot i name q entry (World.underWay_begin turn rfl)

/-- A snapshot was not compiled before. -/
theorem fresh (h : Once made w) {i : Nat} {name : String} {q : Question} {entry : StoredConfig}
    (alone : w.alone (.advance i) = true) (turn : w.calls[i]? = some (.snapshot name q entry))
    {e : Compilation} (he : e ∈ made) : e.source ≠ (name, entry.revision) := by
  intro same
  obtain ⟨rfl, revision⟩ := Prod.mk.inj same
  obtain ⟨stored, uncompiled⟩ := h.snapshot i _ q entry turn
  have current : w.manager.store.isCurrent e.name e.revision = true := by
    simp only [Store.isCurrent, stored, revision, beq_self_eq_true]
  rcases h.kept e he current with compiled | ⟨j, p, other, c, offering, -⟩
  · rw [uncompiled] at compiled
    cases compiled
  · obtain rfl := World.eq_of_alone alone offering rfl
    rw [turn] at offering
    cases offering

/-- What was compiled stays kept, or is kept when the call that compiled it offers it. -/
theorem kept_advance (h : Once made w) {i : Nat} {s : Stage}
    (alone : w.alone (.advance i) = true) (hi : w.calls[i]? = some s) {e : Compilation}
    (he : e ∈ made)
    (current : (s.advance w.manager).2.store.isCurrent e.name e.revision = true) :
    ((s.advance w.manager).2.store.compiled.get? e.name).isSome = true := by
  have step := advance_step s w.manager
  generalize (s.advance w.manager).1 = t at step
  generalize (s.advance w.manager).2 = m at step current
  obtain ⟨before, stays⟩ := step.current (h.issued e he) current
  rcases h.kept e he before with compiled | ⟨j, q, entry, c, offering, revision⟩
  · exact stays compiled
  · obtain rfl := World.eq_of_alone alone offering rfl
    obtain rfl := Option.some.inj (hi.symm.trans offering)
    rw [← revision] at before
    cases step with
    | kept => simp
    | outrun _ _ _ _ first _ compiled => simp [compiled]
    | stale _ _ _ _ replaced => simp [before] at replaced

theorem step (h : Once made w) {i : Nat} (alone : w.alone (.advance i) = true) :
    Once made (w.move (.advance i)) := by
  cases hi : w.calls[i]? with
  | none => simpa only [World.move, hi] using h
  | some s =>
    have step := advance_step s w.manager
    have moved := World.move_advance hi
    refine ⟨h.nodup, ?_, ?_, ?_⟩
    · intro e he
      rw [moved]
      exact Nat.le_trans (h.issued e he) step.lastRevision_le
    · intro e he current
      rw [moved] at current ⊢
      exact .inl (h.kept_advance alone hi he current)
    · intro j name q entry turn
      obtain ⟨-, looked⟩ := World.underWay_advance alone hi turn rfl
      obtain ⟨same, found⟩ := step.snapshot_inv looked.symm
      rw [moved]
      dsimp only
      rw [same]
      exact found

/-- A compilation counts from the moment at which its result is to be offered. -/
theorem add (h : Once made w) {e : Compilation} (fresh : ∀ d ∈ made, d.source ≠ e.source)
    (issued : e.revision ≤ w.manager.store.lastRevision) {i : Nat} {q : Question}
    {entry : StoredConfig} {c : Compiled} (turn : w.calls[i]? = some (.offering e.name q entry c))
    (revision : entry.revision = e.revision) : Once (made ++ [e]) w where
  nodup := by
    rw [List.map_append, List.map_singleton, List.nodup_append]
    refine ⟨h.nodup, List.pairwise_singleton _ _, ?_⟩
    intro source hs last hl
    obtain ⟨d, hd, rfl⟩ := List.mem_map.mp hs
    obtain rfl := List.mem_singleton.mp hl
    exact fresh d hd
  issued := by
    intro d hd
    rcases List.mem_append.mp hd with old | new
    · exact h.issued d old
    · obtain rfl := List.mem_singleton.mp new
      exact issued
  kept := by
    intro d hd current
    rcases List.mem_append.mp hd with old | new
    · exact h.kept d old current
    · obtain rfl := List.mem_singleton.mp new
      exact .inr ⟨i, q, entry, c, turn, revision⟩
  snapshot := h.snapshot

theorem advance (h : Once made w) (sound : w.Sound ledger) {i : Nat}
    (alone : w.alone (.advance i) = true) :
    Once (made ++ w.makes (.advance i)) (w.move (.advance i)) := by
  have next := h.step alone
  cases hi : w.calls[i]? with
  | none => simpa only [World.makes, hi, List.append_nil] using next
  | some s =>
    have step := advance_step s w.manager
    simp only [World.makes, hi]
    rcases step.made_cases with ⟨nothing, -⟩ | ⟨name, q, entry, f, rfl, offering, -⟩
    · rwa [nothing, List.append_nil]
    · have issued : Issued ledger name entry :=
        (sound.calls _ (List.mem_of_getElem? hi)).issued rfl
      have turn : (w.move (.advance i)).calls[i]? =
          some (.offering name q entry ⟨f, w.manager.compilations + 1⟩) := by
        rw [World.getElem?_advance hi, offering]
      rw [offering]
      refine next.add (fun d hd => h.fresh alone hi hd) ?_ turn rfl
      rw [World.move_advance hi]
      calc entry.revision
          ≤ ledger.length := issued.revision_le
        _ = w.manager.store.lastRevision := sound.store.last.symm
        _ ≤ _ := step.lastRevision_le

theorem run (h : Once made w) (sound : w.Sound ledger) {moves : List Move}
    (sequential : w.sequential moves = true) : Once (made ++ w.made moves) (w.run moves) := by
  induction moves generalizing w made ledger with
  | nil => simpa [World.made, World.run] using h
  | cons v moves ih =>
    obtain ⟨alone, rest⟩ := Bool.and_eq_true_iff.mp sequential
    have next : Once (made ++ w.makes v) (w.move v) := by
      cases v with
      | begin r => simpa [World.makes] using h.begin r
      | advance i => exact h.advance sound alone
    have done := ih next (sound.move v) rest
    rwa [List.append_assoc] at done

end Once

/-! ## In every run -/

/-- At every moment of every run the first compiled feature of a name stays, and questions write
nothing else. No two compilations have one serial number. A config is compiled once at most if the
calls do not overlap, and by no write if writes do not validate, for then no compilation is recorded
while they are made. -/
theorem first_compile_stays (builder : ContextBuilder) (settings : ManagerSettings)
    (moves : List Move) :
    let start := World.start builder settings
    FirstStays (start.run moves) ∧
      ((start.made moves).map (·.result.serial)).Nodup ∧
      (start.sequential moves = true → ((start.made moves).map Compilation.source).Nodup) ∧
      (settings.validateOnAdd = false →
        ∀ w : Write, ∀ d ∈ w.log (start.run moves).manager, d.endsCompilation = false) ∧
      ∀ name config, ∃ d ∈ (compileConfig name config).log, d.endsCompilation = true := by
  intro start
  refine ⟨World.firstStays _, ?_, ?_, ?_, recorded_compileConfig⟩
  · rw [start.serials_made moves]
    exact List.nodup_range'
  · intro sequential
    exact ((once_start builder settings).run (World.sound_start builder settings) sequential).nodup
  · intro deferred w
    have settled := (start.frame_run moves).2
    exact w.uncompiled ((congrArg ManagerSettings.validateOnAdd settled).trans deferred)

/-- Two calls that look a feature up and compile it before either offers its result. -/
def race : List Move :=
  [.begin (.write (.insert "f" (.object []))), .advance 0, .begin (.ask "f" .feature),
    .begin (.ask "f" .feature), .advance 1, .advance 2, .advance 1, .advance 2]

/-- Two calls of which the second begins after the first has returned. -/
def turns : List Move :=
  [.begin (.write (.insert "f" (.object []))), .advance 0, .begin (.ask "f" .feature), .advance 1,
    .advance 1, .advance 1, .begin (.ask "f" .feature), .advance 2]

/-- The manager once they have returned. -/
def afterTurns : RuleManager := ((World.start .asIs .default).run turns).manager

/-- A batch that replaces a compiled config and adds one that does not compile. -/
def replacing : Write :=
  .extend [("f", .object [("name", .string "h")]), ("g", .object [("segments", .bool true)])]

/-- The second call of the race offers first, so the first call finds and returns what that one has
compiled. Calls that take turns compile once. A batch after them is stored and logged, and nothing of
it is compiled. -/
theorem first_compile_stays_raced :
    (∀ d, ((World.start .asIs .default).run (race ++ [.advance 2])).Finds 1 "f" .feature d →
        d = ⟨⟨"f", []⟩, 2⟩) ∧
      (∃ reply, ((World.start .asIs .default).run (race ++ [.advance 2, .advance 1])).calls[1]? =
        some (.returned reply) ∧ reply.answer = .feature (.ok (some ⟨⟨"f", []⟩, 2⟩))) ∧
      (((World.start .asIs .default).made turns).map Compilation.source).Nodup ∧
      afterTurns.compiledCount = 1 ∧ (replacing.perform afterTurns).2.compiledCount = 0 ∧
      (replacing.perform afterTurns).2.names = ["f", "g"] ∧ replacing.log afterTurns ≠ [] ∧
      ∀ d ∈ replacing.log afterTurns, d.endsCompilation = false := by
  obtain ⟨stays, -⟩ := first_compile_stays .asIs .default race
  obtain ⟨later, -⟩ := first_compile_stays .asIs .default (race ++ [.advance 2])
  obtain ⟨-, -, once, deferred, -⟩ := first_compile_stays .asIs .default turns
  have kept : ((World.start .asIs .default).run race).Finds 2 "f" .feature ⟨⟨"f", []⟩, 2⟩ :=
    .kept rfl rfl
  have found : ((World.start .asIs .default).run (race ++ [.advance 2])).Finds 1 "f" .feature
      ⟨⟨"f", []⟩, 2⟩ := .kept rfl rfl
  refine ⟨?_, ⟨_, rfl, ?_⟩, once rfl, rfl, rfl, rfl, List.cons_ne_nil _ _, deferred rfl _⟩
  · intro d again
    exact stays.one "f" 2 .feature _ [] 1 .feature d kept trivial again
  · obtain ⟨answers, -⟩ := later.returns 1 "f" .feature _ [] found
    exact answers _ rfl

end FeatureGate.Interleaving
