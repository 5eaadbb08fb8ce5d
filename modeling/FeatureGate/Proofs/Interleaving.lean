import FeatureGate.Proofs.Calls

/-!
# Many callers of one manager

Calls on a shared manager are made in steps. A write, a reset or a validation is one step; a question
about a feature is up to four: look the name up, compile the snapshot, offer the result to the store,
build and judge the context. Between two steps of one call any steps of other calls may come. A run
is a list of moves, each of which begins a call or advances one, so that all interleavings are runs.
-/

namespace FeatureGate.Interleaving

/-! ## Calls and what they return -/

inductive Write where
  | insert (name : String) (config : Json)
  | extend (entries : List (String × Json))
  | loadDocument (content : String) (format : DocumentFormat)
  | loadFile (files : Files) (path : String)

/-- What is asked about a feature. -/
inductive Question where
  | feature
  | has (raw : KeyMap Json)

inductive Request where
  | write (w : Write)
  | reset
  | validateAll
  | ask (name : String) (q : Question)

/-- What a call returns, with `φ` for what it takes a compiled feature to be. -/
inductive Answer (φ : Type) where
  | done (outcome : Except ManagerError Unit)
  | counted (outcome : Except ManagerError Nat)
  | feature (outcome : Except ManagerError (Option φ))
  | granted (outcome : Except ManagerError Bool)

/-- An answer, and whether a context was built for it. -/
structure Reply (φ : Type) where
  answer : Answer φ
  built : Bool

variable {φ : Type}

namespace Write

/-- The entries that a write stores, or why it stores none. -/
def accepted (validate : Bool) : Write → Except ManagerError (List (String × Json))
  | insert name config => accept validate [(name, config)]
  | extend entries => accept validate entries
  | loadDocument content format => RuleManager.acceptDocument validate content format
  | loadFile files path => RuleManager.acceptFile validate files path

/-- What a write returns. -/
def confirm : Write → Except ManagerError (List (String × Json)) → Answer φ
  | insert .., batch | extend .., batch => .done (batch.map fun _ => ())
  | loadDocument .., batch | loadFile .., batch => .counted (batch.map List.length)

def perform (m : RuleManager) : Write → Answer Compiled × RuleManager
  | insert name config =>
    let d := (RuleManager.insert name config).run m
    (.done d.outcome, d.after)
  | extend entries =>
    let d := (RuleManager.extend entries).run m
    (.done d.outcome, d.after)
  | loadDocument content format =>
    let d := (RuleManager.loadDocument content format).run m
    (.counted d.outcome, d.after)
  | loadFile files path =>
    let d := (RuleManager.loadFile files path).run m
    (.counted d.outcome, d.after)

theorem perform_eq (w : Write) (m : RuleManager) :
    w.perform m = (w.confirm (w.accepted m.settings.validateOnAdd),
      m.written (w.accepted m.settings.validateOnAdd)) := by
  cases w with
  | insert name config =>
    have h := RuleManager.run_insert name config m
    simp only [perform, confirm, accepted, h.1, h.2]
  | extend entries =>
    have h := RuleManager.run_extend entries m
    simp only [perform, confirm, accepted, h.1, h.2]
  | loadDocument content format =>
    have h := RuleManager.run_loadDocument content format m
    simp only [perform, confirm, accepted, h.1, h.2]
  | loadFile files path =>
    have h := RuleManager.run_loadFile files path m
    simp only [perform, confirm, accepted, h.1, h.2]

end Write

namespace Question

/-- The answer about a name without a config. -/
def absent : Question → Answer φ
  | feature => .feature (.ok none)
  | has _ => .granted (.ok false)

/-- The answer about a config that does not compile. -/
def refused (e : ManagerError) : Question → Answer φ
  | feature => .feature (.error e)
  | has _ => .granted (.error e)

end Question

/-! ## Steps -/

/-- Where a call stands. A look-up leaves a snapshot of the stored config in the hands of the
caller, who compiles it and offers the result under the revision of the snapshot. -/
inductive Stage where
  | begun (r : Request)
  | snapshot (name : String) (q : Question) (entry : StoredConfig)
  | offering (name : String) (q : Question) (entry : StoredConfig) (c : Compiled)
  | judging (name : String) (raw : KeyMap Json) (c : Compiled)
  | returned (reply : Reply Compiled)

namespace Stage

/-- Where a call stands that has found its compiled feature. -/
def found (name : String) (c : Compiled) : Question → Stage
  | .feature => returned ⟨.feature (.ok (some c)), false⟩
  | .has raw => judging name raw c

/-- One step of a call, on the manager as it is at that moment. -/
def advance (m : RuleManager) : Stage → Stage × RuleManager
  | begun (.write w) => (returned ⟨(w.perform m).1, false⟩, (w.perform m).2)
  | begun .reset =>
    let d := RuleManager.reset.run m
    (returned ⟨.done d.outcome, false⟩, d.after)
  | begun .validateAll =>
    let d := RuleManager.validateAll.run m
    (returned ⟨.counted d.outcome, false⟩, d.after)
  | begun (.ask name q) =>
    match m.store.lookup name with
    | .unconfigured => (returned ⟨q.absent, false⟩, m)
    | .compiled c => (found name c q, m)
    | .configured entry => (snapshot name q entry, m)
  | snapshot name q entry =>
    let d := (RuleManager.compileEntry name entry).run m
    match d.outcome with
    | .error e => (returned ⟨q.refused e, false⟩, d.after)
    | .ok c => (offering name q entry c, d.after)
  | offering name q entry c =>
    let d := (RuleManager.settleFeature name entry.revision c).run m
    match d.outcome with
    | .error e => (returned ⟨q.refused e, false⟩, d.after)
    | .ok kept => (found name kept q, d.after)
  | judging name raw c =>
    let d := (RuleManager.judge name raw c).run m
    (returned ⟨.granted d.outcome, true⟩, d.after)
  | returned reply => (returned reply, m)

end Stage

/-- Everything that one step of a call can do, and when: where the call goes and which manager it
leaves behind. -/
inductive Step (m : RuleManager) : Stage → Stage → RuleManager → Prop where
  | wrote (w : Write) :
      Step m (.begun (.write w))
        (.returned ⟨w.confirm (w.accepted m.settings.validateOnAdd), false⟩)
        (m.written (w.accepted m.settings.validateOnAdd))
  | cleared : Step m (.begun .reset) (.returned ⟨.done (.ok ()), false⟩)
        { m with store := m.store.clear }
  | validated :
      Step m (.begun .validateAll)
        (.returned ⟨.counted ((m.store.configs.entries.findSome? fun e =>
          compileError? e.1 e.2.config).elim (.ok m.store.size) .error), false⟩) m
  | absent (name : String) (q : Question) (unconfigured : m.store.configs.get? name = none)
      (uncompiled : m.store.compiled.get? name = none) :
      Step m (.begun (.ask name q)) (.returned ⟨q.absent, false⟩) m
  | hit (name : String) (q : Question) (c : Compiled)
      (compiled : m.store.compiled.get? name = some c) :
      Step m (.begun (.ask name q)) (.found name c q) m
  | looked (name : String) (q : Question) (entry : StoredConfig)
      (configured : m.store.configs.get? name = some entry)
      (uncompiled : m.store.compiled.get? name = none) :
      Step m (.begun (.ask name q)) (.snapshot name q entry) m
  | failed (name : String) (q : Question) (entry : StoredConfig) (e : ManagerError)
      (faulty : compilation name entry.config = .error e) :
      Step m (.snapshot name q entry) (.returned ⟨q.refused e, false⟩) m
  | compiled (name : String) (q : Question) (entry : StoredConfig) (f : Feature)
      (sound : compilation name entry.config = .ok f) :
      Step m (.snapshot name q entry) (.offering name q entry ⟨f, m.compilations + 1⟩)
        { m with compilations := m.compilations + 1 }
  | kept (name : String) (q : Question) (entry : StoredConfig) (c : Compiled)
      (current : m.store.isCurrent name entry.revision = true)
      (uncompiled : m.store.compiled.get? name = none) :
      Step m (.offering name q entry c) (.found name c q)
        { m with store := { m.store with compiled := m.store.compiled.insert name c } }
  | outrun (name : String) (q : Question) (entry : StoredConfig) (c first : Compiled)
      (current : m.store.isCurrent name entry.revision = true)
      (compiled : m.store.compiled.get? name = some first) :
      Step m (.offering name q entry c) (.found name first q) m
  | stale (name : String) (q : Question) (entry : StoredConfig) (c : Compiled)
      (replaced : m.store.isCurrent name entry.revision = false) :
      Step m (.offering name q entry c) (.found name c q) m
  | judged (name : String) (raw : KeyMap Json) (c : Compiled) :
      Step m (.judging name raw c)
        (.returned
          ⟨.granted (((m.builder raw).mapError (.context name)).map c.feature.grants), true⟩)
        m
  | rested (reply : Reply Compiled) : Step m (.returned reply) (.returned reply) m

theorem advance_step (s : Stage) (m : RuleManager) :
    Step m s (s.advance m).1 (s.advance m).2 := by
  cases s with
  | begun r =>
    cases r with
    | write w =>
      simp only [Stage.advance, Write.perform_eq]
      exact .wrote w
    | reset => exact .cleared
    | validateAll =>
      obtain ⟨outcome, after⟩ := RuleManager.run_validateAll m
      simp only [Stage.advance, outcome, after]
      exact .validated
    | ask name q =>
      simp only [Stage.advance, Store.lookup]
      cases hc : m.store.compiled.get? name with
      | some c => exact .hit name q c hc
      | none =>
        cases he : m.store.configs.get? name with
        | none => exact .absent name q he hc
        | some entry => exact .looked name q entry he hc
  | snapshot name q entry =>
    obtain ⟨outcome, after⟩ := RuleManager.run_compileEntry name entry m
    cases h : compilation name entry.config with
    | error e =>
      simp only [Stage.advance, outcome, after, h, Except.map]
      exact .failed name q entry e h
    | ok f =>
      simp only [Stage.advance, outcome, after, h, Except.map]
      exact .compiled name q entry f h
  | offering name q entry c =>
    obtain ⟨outcome, after⟩ := RuleManager.run_settleFeature name entry.revision c m
    simp only [Stage.advance, outcome, after, Store.keep]
    cases current : m.store.isCurrent name entry.revision with
    | false => exact .stale name q entry c current
    | true =>
      simp only [if_true]
      cases hc : m.store.compiled.get? name with
      | none => exact .kept name q entry c current hc
      | some first => exact .outrun name q entry c first current hc
  | judging name raw c =>
    obtain ⟨outcome, after⟩ := RuleManager.run_judge name raw c m
    simp only [Stage.advance, outcome, after]
    exact .judged name raw c
  | returned reply => exact .rested reply

theorem Step.frame {m m' : RuleManager} {s t : Stage} (h : Step m s t m') :
    m'.builder = m.builder ∧ m'.settings = m.settings := by
  cases h with
  | wrote w => cases w.accepted m.settings.validateOnAdd <;> exact ⟨rfl, rfl⟩
  | _ => exact ⟨rfl, rfl⟩

/-! ## Calls without interruption

A question that no other call comes between is the manager's own call. -/

/-- A call followed to its end, with no step of another call between its own. -/
def Stage.finish (s : Stage) (m : RuleManager) : Stage × RuleManager :=
  let next := fun x : Stage × RuleManager => x.1.advance x.2
  next (next (next (next (s, m))))

theorem finish_feature (name : String) (m : RuleManager) :
    (Stage.begun (.ask name .feature)).finish m =
      (.returned ⟨.feature ((RuleManager.feature name).run m).outcome, false⟩,
        ((RuleManager.feature name).run m).after) := by
  simp only [Stage.finish, Stage.advance, (RuleManager.run_feature name m).1,
    (RuleManager.run_feature name m).2]
  cases m.store.lookup name with
  | unconfigured => rfl
  | compiled c => rfl
  | configured entry =>
    simp only [(RuleManager.run_compileEntry name entry m).1,
      (RuleManager.run_compileEntry name entry m).2]
    cases compilation name entry.config with
    | error e => rfl
    | ok f =>
      simp only [Except.map, (RuleManager.run_settleFeature _ _ _ _).1,
        (RuleManager.run_settleFeature _ _ _ _).2]
      rfl

theorem finish_has (name : String) (raw : KeyMap Json) (m : RuleManager) :
    ∃ built, (Stage.begun (.ask name (.has raw))).finish m =
      (.returned ⟨.granted ((RuleManager.has name raw).run m).outcome, built⟩,
        ((RuleManager.has name raw).run m).after) := by
  simp only [Stage.finish, Stage.advance, (RuleManager.run_has name raw m).1,
    (RuleManager.run_has name raw m).2, (RuleManager.run_feature name m).1,
    (RuleManager.run_feature name m).2]
  cases m.store.lookup name with
  | unconfigured => exact ⟨false, rfl⟩
  | compiled c =>
    refine ⟨true, ?_⟩
    simp only [Stage.found, (RuleManager.run_judge name raw c m).1,
      (RuleManager.run_judge name raw c m).2]
    rfl
  | configured entry =>
    simp only [(RuleManager.run_compileEntry name entry m).1,
      (RuleManager.run_compileEntry name entry m).2]
    cases compilation name entry.config with
    | error e => exact ⟨false, rfl⟩
    | ok f =>
      refine ⟨true, ?_⟩
      simp only [Except.map, Stage.found, (RuleManager.run_settleFeature _ _ _ _).1,
        (RuleManager.run_settleFeature _ _ _ _).2, (RuleManager.run_judge name raw _ _).1,
        (RuleManager.run_judge name raw _ _).2]
      rfl

/-! ## Runs -/

/-- A manager, and all calls that were ever begun on it, in the order of their beginning. -/
structure World where
  manager : RuleManager
  calls : List Stage

inductive Move where
  | begin (r : Request)
  | advance (i : Nat)

def Move.advances (i : Nat) : Move → Bool
  | begin _ => false
  | advance j => i == j

namespace World

def start (builder : ContextBuilder) (settings : ManagerSettings) : World :=
  ⟨.new builder settings, []⟩

def move (w : World) : Move → World
  | .begin r => { w with calls := w.calls ++ [.begun r] }
  | .advance i =>
    match w.calls[i]? with
    | none => w
    | some s => ⟨(s.advance w.manager).2, w.calls.set i (s.advance w.manager).1⟩

def run (w : World) (moves : List Move) : World := moves.foldl move w

theorem run_append (w : World) (before after : List Move) :
    w.run (before ++ after) = (w.run before).run after := List.foldl_append

theorem move_advance {w : World} {i : Nat} {s : Stage} (h : w.calls[i]? = some s) :
    w.move (.advance i) = ⟨(s.advance w.manager).2, w.calls.set i (s.advance w.manager).1⟩ := by
  simp only [move, h]

theorem getElem?_begin (w : World) (r : Request) :
    (w.move (.begin r)).calls[w.calls.length]? = some (.begun r) := by
  simp [move]

theorem getElem?_advance {w : World} {i : Nat} {s : Stage} (h : w.calls[i]? = some s) :
    (w.move (.advance i)).calls[i]? = some (s.advance w.manager).1 := by
  have bound : i < w.calls.length := (List.getElem?_eq_some_iff.mp h).1
  rw [move_advance h]
  exact List.getElem?_set_self bound

/-- A call stays where it is while others move. -/
theorem getElem?_move {w : World} {i : Nat} {s : Stage} (h : w.calls[i]? = some s) (v : Move) :
    (w.move v).calls[i]? = some (if v.advances i then (s.advance w.manager).1 else s) := by
  have bound : i < w.calls.length := (List.getElem?_eq_some_iff.mp h).1
  cases v with
  | begin r =>
    rw [move, List.getElem?_append_left bound, h]
    rfl
  | advance j =>
    by_cases same : i = j
    · subst same
      simp [getElem?_advance h, Move.advances]
    · have other : Move.advances i (.advance j) = false := by simp [Move.advances, same]
      rw [other]
      cases hj : w.calls[j]? with
      | none => simp [move, hj, h]
      | some t => simp [move_advance hj, List.getElem?_set_ne (Ne.symm same), h]

/-- Whether the manager has one property and every call has another. -/
structure Each (P : RuleManager → Prop) (Q : Stage → Prop) (w : World) : Prop where
  manager : P w.manager
  calls : ∀ s ∈ w.calls, Q s

variable {P : RuleManager → Prop} {Q : Stage → Prop}

/-- Properties that every step preserves are preserved by every move, for a move touches one call
and the manager only. -/
theorem Each.move {w : World} (h : w.Each P Q) (begun : ∀ r, Q (.begun r))
    (step : ∀ m s t m', Step m s t m' → P m → Q s → P m' ∧ Q t) (v : Move) :
    (w.move v).Each P Q := by
  cases v with
  | begin r =>
    refine ⟨h.manager, ?_⟩
    intro s hs
    rcases List.mem_append.mp hs with hs | hs
    · exact h.calls s hs
    · obtain rfl := List.mem_singleton.mp hs
      exact begun r
  | advance i =>
    cases hi : w.calls[i]? with
    | none => simpa only [World.move, hi] using h
    | some s =>
      obtain ⟨manager, stage⟩ := step _ _ _ _ (advance_step s w.manager) h.manager
        (h.calls s (List.mem_of_getElem? hi))
      rw [move_advance hi]
      refine ⟨manager, ?_⟩
      intro t ht
      rcases List.mem_or_eq_of_mem_set ht with ht | rfl
      · exact h.calls t ht
      · exact stage

theorem Each.run {w : World} (h : w.Each P Q) (begun : ∀ r, Q (.begun r))
    (step : ∀ m s t m', Step m s t m' → P m → Q s → P m' ∧ Q t) (moves : List Move) :
    (w.run moves).Each P Q := by
  induction moves generalizing w with
  | nil => exact h
  | cons v moves ih => exact ih (h.move begun step v)

theorem frame_run (w : World) (moves : List Move) :
    (w.run moves).manager.builder = w.manager.builder ∧
      (w.run moves).manager.settings = w.manager.settings := by
  have each : w.Each (fun m => m.builder = w.manager.builder ∧ m.settings = w.manager.settings)
      fun _ => True := ⟨⟨rfl, rfl⟩, fun _ _ => trivial⟩
  refine (each.run (fun _ => trivial) ?_ moves).manager
  intro m s t m' step same _
  exact ⟨⟨step.frame.1.trans same.1, step.frame.2.trans same.2⟩, trivial⟩

/-- What every step keeps of a manager and of the call that makes it is kept through a run. -/
theorem tracked_run (manager : ∀ m s t m', Step m s t m' → P m → P m')
    (call : ∀ m s t m', Step m s t m' → P m → Q s → Q t) {w : World} {i : Nat} {s : Stage}
    (h : w.calls[i]? = some s) (hm : P w.manager) (hs : Q s) (moves : List Move) :
    ∃ t, (w.run moves).calls[i]? = some t ∧ P (w.run moves).manager ∧ Q t := by
  induction moves generalizing w s with
  | nil => exact ⟨s, h, hm, hs⟩
  | cons v moves ih =>
    have each : w.Each P fun _ => True := ⟨hm, fun _ _ => trivial⟩
    have next := each.move (fun _ => trivial)
      (fun m s t m' step hm _ => ⟨manager m s t m' step hm, trivial⟩) v
    apply ih (getElem?_move h v) next.manager
    split
    · exact call _ _ _ _ (advance_step s w.manager) hm hs
    · exact hs

/-- What every step keeps of the call that makes it is kept through a run. -/
theorem call_run (step : ∀ m s t m', Step m s t m' → Q s → Q t) {w : World} {i : Nat} {s : Stage}
    (h : w.calls[i]? = some s) (hs : Q s) (moves : List Move) :
    ∃ t, (w.run moves).calls[i]? = some t ∧ Q t := by
  obtain ⟨t, ht, -, kept⟩ := tracked_run (P := fun _ => True) (fun _ _ _ _ _ _ => trivial)
    (fun m s t m' next _ => step m s t m' next) h trivial hs moves
  exact ⟨t, ht, kept⟩

end World

/-! ## Every call returns

No step waits for another call: a call has returned after at most four steps of its own. -/

/-- How many steps a call may still take. -/
def Stage.remaining : Stage → Nat
  | begun _ => 4
  | snapshot .. => 3
  | offering .. => 2
  | judging .. => 1
  | returned _ => 0

theorem remaining_found (name : String) (c : Compiled) (q : Question) :
    (Stage.found name c q).remaining ≤ 1 := by
  cases q with
  | feature => exact Nat.zero_le 1
  | has raw => exact Nat.le_refl 1

theorem Step.remaining {m m' : RuleManager} {s t : Stage} (h : Step m s t m') :
    t.remaining ≤ s.remaining - 1 := by
  cases h with
  | hit name q c | kept name q _ c | outrun name q _ _ c | stale name q _ c =>
    exact Nat.le_trans (remaining_found name c q) (by simp [Stage.remaining])
  | _ => simp [Stage.remaining]

theorem World.remaining_move {w : World} {i : Nat} {s : Stage} (h : w.calls[i]? = some s)
    (v : Move) :
    ∃ t, (w.move v).calls[i]? = some t ∧
      t.remaining ≤ s.remaining - if v.advances i then 1 else 0 := by
  refine ⟨_, getElem?_move h v, ?_⟩
  cases own : v.advances i with
  | false => exact Nat.le_refl _
  | true => exact (advance_step s w.manager).remaining

theorem World.remaining_run {w : World} {i : Nat} {s : Stage} (h : w.calls[i]? = some s)
    (moves : List Move) :
    ∃ t, (w.run moves).calls[i]? = some t ∧
      t.remaining ≤ s.remaining - moves.countP (·.advances i) := by
  induction moves generalizing w s with
  | nil => exact ⟨s, h, Nat.le_refl _⟩
  | cons v moves ih =>
    obtain ⟨t, ht, less⟩ := w.remaining_move h v
    obtain ⟨u, hu, fewer⟩ := ih ht
    refine ⟨u, hu, ?_⟩
    rw [List.countP_cons]
    omega

/-- Whatever the other calls do, a call that has taken four steps has returned. -/
theorem World.returns (w : World) (r : Request) (moves : List Move)
    (enough : 4 ≤ moves.countP (·.advances w.calls.length)) :
    ∃ reply, ((w.move (.begin r)).run moves).calls[w.calls.length]? = some (.returned reply) := by
  obtain ⟨t, ht, few⟩ := remaining_run (w.getElem?_begin r) moves
  cases t with
  | returned reply => exact ⟨reply, ht⟩
  | _ => simp only [Stage.remaining] at few; omega

end FeatureGate.Interleaving
