import FeatureGate.Proofs.Interleaving
import FeatureGate.Proofs.Writes

/-!
# The first compiled feature stays

Every successful compilation has a serial number of its own, by which its result is told from any
other. A result that is kept stays until its name is written or the store is cleared, and all calls
that find a feature in between find that one, also those that have compiled another themselves.
Questions and validations write nothing, and a call that returns a compile error has changed nothing.
-/

namespace FeatureGate.Interleaving

/-! ## Stretches without a write -/

/-- Whether the next step of a call drops what is compiled of a name. -/
inductive Stage.Drops (name : String) (m : RuleManager) : Stage → Prop
  | write {w : Write} {entries : List (String × Json)} {config : Json}
      (accepted : w.accepted m.settings.validateOnAdd = .ok entries)
      (listed : (name, config) ∈ entries) : Drops name m (.begun (.write w))
  | clear : Drops name m (.begun .reset)

theorem Step.compiled_stays {m m' : RuleManager} {s t : Stage} (h : Step m s t m') {name : String}
    {c : Compiled} (compiled : m.store.compiled.get? name = some c)
    (spared : ¬ s.Drops name m) : m'.store.compiled.get? name = some c := by
  cases h with
  | wrote w =>
    cases batch : w.accepted m.settings.validateOnAdd with
    | error e => exact compiled
    | ok entries =>
      have unlisted : ∀ e ∈ entries, e.1 ≠ name := by
        rintro ⟨listed, config⟩ member rfl
        exact spared (.write batch member)
      exact (m.store.insertMany_unlisted unlisted).2.trans compiled
  | cleared => exact absurd .clear spared
  | kept other _ _ own _ uncompiled =>
    have differs : other ≠ name := by
      rintro rfl
      rw [compiled] at uncompiled
      cases uncompiled
    dsimp only
    rw [KeyMap.get?_insert, if_neg differs]
    exact compiled
  | validated | absent | hit | looked | failed | compiled | outrun | stale | judged | rested =>
    exact compiled

namespace World

/-- Whether a move drops what is compiled of a name. -/
def Drops (name : String) (w : World) (v : Move) : Prop :=
  ∃ i s, v = .advance i ∧ w.calls[i]? = some s ∧ s.Drops name w.manager

/-- Whether none of the moves drops what is compiled of a name. -/
def Spares (name : String) (w : World) : List Move → Prop
  | [] => True
  | v :: moves => ¬ w.Drops name v ∧ (w.move v).Spares name moves

theorem compiled_stays {w : World} {name : String} {c : Compiled}
    (compiled : w.manager.store.compiled.get? name = some c) {moves : List Move}
    (spared : w.Spares name moves) : (w.run moves).manager.store.compiled.get? name = some c := by
  induction moves generalizing w with
  | nil => exact compiled
  | cons v moves ih =>
    obtain ⟨first, rest⟩ := spared
    refine ih ?_ rest
    cases v with
    | begin r => exact compiled
    | advance i =>
      cases hi : w.calls[i]? with
      | none => simpa only [move, hi] using compiled
      | some s =>
        rw [move_advance hi]
        apply (advance_step s w.manager).compiled_stays compiled
        intro drops
        exact first ⟨i, s, rfl, hi, drops⟩

end World

/-! ## Calls that find a feature -/

/-- Whether the next step of a call finds this feature for its question: the look-up finds it, or the
store answers with it when another is offered. -/
inductive World.Finds (w : World) (i : Nat) (name : String) (q : Question) (c : Compiled) : Prop
  | hit (turn : w.calls[i]? = some (.begun (.ask name q)))
      (found : w.manager.store.lookup name = .compiled c)
  | kept {entry : StoredConfig} {own : Compiled}
      (turn : w.calls[i]? = some (.offering name q entry own))
      (answered : (w.manager.store.keep name entry.revision own).2 = some c)

/-- What a call returns that has found a feature. -/
def Question.answered (builder : ContextBuilder) (name : String) (c : Compiled) :
    Question → Answer Compiled
  | feature => .feature (.ok (some c))
  | has raw => .granted (((builder raw).mapError (.context name)).map c.feature.grants)

/-- Whether a call has found a feature, or returned what follows from it. -/
inductive Stage.Answers (builder : ContextBuilder) (name : String) (c : Compiled) (q : Question) :
    Stage → Prop
  | found : Answers builder name c q (.found name c q)
  | returned (built : Bool) :
      Answers builder name c q (.returned ⟨q.answered builder name c, built⟩)

theorem Stage.Answers.reply {builder : ContextBuilder} {name : String} {c : Compiled} {q : Question}
    {s : Stage} (h : s.Answers builder name c q) {reply : Reply Compiled}
    (returned : s = .returned reply) : reply.answer = q.answered builder name c := by
  cases h with
  | found =>
    cases q with
    | feature =>
      obtain rfl := Stage.returned.inj returned
      rfl
    | has raw => cases returned
  | returned built =>
    obtain rfl := Stage.returned.inj returned
    rfl

theorem Step.answers {m m' : RuleManager} {s t : Stage} (h : Step m s t m') {name : String}
    {c : Compiled} {q : Question} (answers : s.Answers m.builder name c q) :
    t.Answers m.builder name c q := by
  cases answers with
  | returned built =>
    cases h
    exact .returned built
  | found =>
    cases q with
    | feature =>
      cases h
      exact .found
    | has raw =>
      cases h
      exact .returned true

namespace World

variable {w : World} {i : Nat} {name : String} {q : Question} {c d : Compiled}

/-- A call that finds a feature goes on with it, and finds it kept. -/
theorem Finds.move (h : w.Finds i name q c) :
    (w.move (.advance i)).calls[i]? = some (.found name c q) ∧
      (w.move (.advance i)).manager.store.compiled.get? name = some c := by
  have turn : ∃ s, w.calls[i]? = some s := by
    cases h with
    | hit turn | kept turn => exact ⟨_, turn⟩
  obtain ⟨s, hs⟩ := turn
  rw [getElem?_advance hs, move_advance hs]
  have step := advance_step s w.manager
  generalize (s.advance w.manager).1 = t at step
  generalize (s.advance w.manager).2 = m at step
  cases h with
  | hit turn found =>
    obtain rfl := Option.some.inj (hs.symm.trans turn)
    unfold Store.lookup at found
    cases step with
    | absent _ _ unconfigured uncompiled => simp [unconfigured, uncompiled] at found
    | looked _ _ entry configured uncompiled => simp [configured, uncompiled] at found
    | hit _ _ first compiled =>
      rw [compiled] at found
      obtain rfl := Lookup.compiled.inj found
      exact ⟨rfl, compiled⟩
  | @kept entry own turn answered =>
    obtain rfl := Option.some.inj (hs.symm.trans turn)
    unfold Store.keep at answered
    cases step with
    | stale _ _ _ _ replaced => simp [replaced] at answered
    | outrun _ _ _ _ first current compiled =>
      simp only [current, compiled, if_true] at answered
      obtain rfl := Option.some.inj answered
      exact ⟨rfl, compiled⟩
    | kept _ _ _ _ current uncompiled =>
      simp only [current, uncompiled, if_true] at answered
      obtain rfl := Option.some.inj answered
      exact ⟨rfl, KeyMap.get?_insert_self _ _ _⟩

/-- A call finds what is compiled. -/
theorem Finds.eq_of_compiled (h : w.Finds i name q d)
    (compiled : w.manager.store.compiled.get? name = some c) : d = c := by
  cases h with
  | hit _ found =>
    rw [Store.lookup, compiled] at found
    exact (Lookup.compiled.inj found).symm
  | kept _ answered =>
    simp only [Store.keep, compiled] at answered
    split at answered
    · exact (Option.some.inj answered).symm
    · cases answered

/-- What a call returns follows from the feature that it has found, and it takes one step more at
most. -/
theorem Finds.returns (h : w.Finds i name q c) (later : List Move) :
    (∀ reply, (w.run (.advance i :: later)).calls[i]? = some (.returned reply) →
      reply.answer = q.answered w.manager.builder name c) ∧
    (1 ≤ later.countP (·.advances i) →
      ∃ reply, (w.run (.advance i :: later)).calls[i]? = some (.returned reply)) := by
  obtain ⟨found, -⟩ := h.move
  have builder : (w.move (.advance i)).manager.builder = w.manager.builder :=
    (w.frame_run [.advance i]).1
  constructor
  · intro reply returned
    obtain ⟨t, ht, -, answers⟩ := tracked_run
      (P := fun m => m.builder = w.manager.builder)
      (Q := Stage.Answers w.manager.builder name c q)
      (fun m s t m' step hm => step.frame.1.trans hm)
      (fun m s t m' step hm answers => by
        rw [← hm] at answers ⊢
        exact step.answers answers)
      found builder .found later
    exact answers.reply (Option.some.inj (ht.symm.trans returned))
  · intro enough
    obtain ⟨t, ht, few⟩ := remaining_run found later
    have last := remaining_found name c q
    have done : t.remaining = 0 := by omega
    cases t with
    | returned reply => exact ⟨reply, ht⟩
    | begun | snapshot | offering | judging => cases done

end World

/-! ## What questions and validations leave alone -/

/-- Whether a store is another one with at most one compiled feature more, of the given name. -/
structure KeepsOnly (name : String) (st st' : Store) : Prop where
  configs : st'.configs = st.configs
  lastRevision : st'.lastRevision = st.lastRevision
  others : ∀ other, other ≠ name → st'.compiled.get? other = st.compiled.get? other
  own : ∀ c, st.compiled.get? name = some c → st'.compiled.get? name = some c

theorem KeepsOnly.refl (name : String) (st : Store) : KeepsOnly name st st :=
  ⟨rfl, rfl, fun _ _ => rfl, fun _ => id⟩

/-- The stages of a question about a name. -/
inductive Stage.Asks (name : String) : Stage → Prop
  | begun (q : Question) : Asks name (.begun (.ask name q))
  | snapshot (q : Question) (entry : StoredConfig) : Asks name (.snapshot name q entry)
  | offering (q : Question) (entry : StoredConfig) (c : Compiled) :
      Asks name (.offering name q entry c)
  | judging (raw : KeyMap Json) (c : Compiled) : Asks name (.judging name raw c)
  | returned (reply : Reply Compiled) : Asks name (.returned reply)

theorem Stage.asks_found (name : String) (c : Compiled) (q : Question) :
    (Stage.found name c q).Asks name := by
  cases q with
  | feature => exact .returned _
  | has raw => exact .judging raw c

theorem Step.asks {m m' : RuleManager} {s t : Stage} (h : Step m s t m') {name : String}
    (asks : s.Asks name) : t.Asks name ∧ KeepsOnly name m.store m'.store := by
  cases asks with
  | begun q =>
    cases h with
    | absent => exact ⟨.returned _, .refl name _⟩
    | hit _ _ c => exact ⟨Stage.asks_found name c q, .refl name _⟩
    | looked _ _ entry => exact ⟨.snapshot q entry, .refl name _⟩
  | snapshot q entry =>
    cases h with
    | failed => exact ⟨.returned _, .refl name _⟩
    | compiled => exact ⟨.offering q entry _, .refl name _⟩
  | offering q entry c =>
    cases h with
    | outrun _ _ _ _ first => exact ⟨Stage.asks_found name first q, .refl name _⟩
    | stale => exact ⟨Stage.asks_found name c q, .refl name _⟩
    | kept _ _ _ _ _ uncompiled =>
      refine ⟨Stage.asks_found name c q, rfl, rfl, ?_, ?_⟩
      · intro other differs
        exact (KeyMap.get?_insert _ _ _ _).trans (if_neg (Ne.symm differs))
      · intro d compiled
        rw [uncompiled] at compiled
        cases compiled
  | judging raw c =>
    cases h
    exact ⟨.returned _, .refl name _⟩
  | returned reply =>
    cases h
    exact ⟨.returned reply, .refl name _⟩

/-- The stages of a validation of all configs. -/
inductive Stage.Validates : Stage → Prop
  | begun : Validates (.begun .validateAll)
  | returned (reply : Reply Compiled) : Validates (.returned reply)

theorem Step.validates {m m' : RuleManager} {s t : Stage} (h : Step m s t m')
    (validates : s.Validates) : t.Validates ∧ m' = m := by
  cases validates with
  | begun =>
    cases h
    exact ⟨.returned _, rfl⟩
  | returned reply =>
    cases h
    exact ⟨.returned reply, rfl⟩

/-! ## Calls that fail to compile -/

/-- The error that a call returns. -/
def Answer.error? {φ : Type} : Answer φ → Option ManagerError
  | done (.error e) | counted (.error e) | feature (.error e) | granted (.error e) => some e
  | _ => none

/-- Whether a call does not end in a compile error any more. -/
def Stage.Unrefused : Stage → Prop
  | offering .. | judging .. => True
  | returned reply => ∀ name e, reply.answer.error? ≠ some (.compile name e)
  | _ => False

theorem Stage.unrefused_found (name : String) (c : Compiled) (q : Question) :
    (Stage.found name c q).Unrefused := by
  cases q with
  | feature => exact nofun
  | has raw => trivial

/-- A step that changes the manager is one of a call that does not end in a compile error. -/
theorem Step.unchanged_or_unrefused {m m' : RuleManager} {s t : Stage} (h : Step m s t m') :
    m' = m ∨ t.Unrefused := by
  cases h with
  | wrote w =>
    cases w.accepted m.settings.validateOnAdd with
    | error e => exact .inl rfl
    | ok entries =>
      right
      cases w <;> exact nofun
  | cleared => exact .inr nofun
  | compiled => exact .inr trivial
  | kept name q _ c => exact .inr (Stage.unrefused_found name c q)
  | validated | absent | hit | looked | failed | outrun | stale | judged | rested => exact .inl rfl

theorem Step.unrefused {m m' : RuleManager} {s t : Stage} (h : Step m s t m')
    (unrefused : s.Unrefused) : t.Unrefused := by
  cases h with
  | wrote | cleared | validated | absent | hit | looked | failed | compiled => cases unrefused
  | kept name q _ c | outrun name q _ _ c | stale name q _ c => exact Stage.unrefused_found name c q
  | rested => exact unrefused
  | judged name raw c =>
    intro other e
    cases m.builder raw with
    | ok ctx => exact nofun
    | error source => exact nofun

/-! ## At every moment -/

/-- What is true of compiled features and of calls at a moment, whatever moves come later. -/
structure FirstStays (w : World) : Prop where
  stays : ∀ name c later, w.manager.store.compiled.get? name = some c → w.Spares name later →
    (w.run later).manager.store.compiled.get? name = some c
  /-- Two calls find one feature if nothing drops it in between. -/
  one : ∀ name i p c mid j q d, w.Finds i name p c → (w.move (.advance i)).Spares name mid →
    ((w.move (.advance i)).run mid).Finds j name q d → d = c
  returns : ∀ i name q c later, w.Finds i name q c →
    (∀ reply, (w.run (.advance i :: later)).calls[i]? = some (.returned reply) →
      reply.answer = q.answered w.manager.builder name c) ∧
    (1 ≤ later.countP (·.advances i) →
      ∃ reply, (w.run (.advance i :: later)).calls[i]? = some (.returned reply))
  /-- A step of a question about a name that is begun now. -/
  question : ∀ name q later, let u := (w.move (.begin (.ask name q))).run later
    KeepsOnly name u.manager.store (u.move (.advance w.calls.length)).manager.store
  /-- A step of a validation that is begun now. -/
  validation : ∀ later, let u := (w.move (.begin .validateAll)).run later
    (u.move (.advance w.calls.length)).manager = u.manager
  /-- A step now of a call that will return a compile error. -/
  refused : ∀ i later reply name e,
    (w.run (.advance i :: later)).calls[i]? = some (.returned reply) →
    reply.answer.error? = some (.compile name e) → (w.move (.advance i)).manager = w.manager

theorem World.firstStays (w : World) : FirstStays w where
  stays := by
    intro name c later compiled spared
    exact compiled_stays compiled spared
  one := by
    intro name i p c mid j q d found spared again
    exact again.eq_of_compiled (compiled_stays found.move.2 spared)
  returns := by
    intro i name q c later found
    exact found.returns later
  question := by
    intro name q later u
    obtain ⟨s, hs, asks⟩ := call_run (fun _ _ _ _ step asks => (step.asks asks).1)
      (w.getElem?_begin (.ask name q)) (.begun q) later
    rw [move_advance hs]
    exact ((advance_step s _).asks asks).2
  validation := by
    intro later u
    obtain ⟨s, hs, validates⟩ := call_run (fun _ _ _ _ step stage => (step.validates stage).1)
      (w.getElem?_begin .validateAll) .begun later
    rw [move_advance hs]
    exact ((advance_step s _).validates validates).2
  refused := by
    intro i later reply name e returned failed
    cases hi : w.calls[i]? with
    | none => simp only [World.move, hi]
    | some s =>
      have step := advance_step s w.manager
      rcases step.unchanged_or_unrefused with same | unrefused
      · rw [move_advance hi]
        exact same
      · obtain ⟨t, ht, still⟩ := call_run (fun _ _ _ _ step before => step.unrefused before)
          (getElem?_advance hi) unrefused later
        obtain rfl := Option.some.inj (ht.symm.trans returned)
        exact absurd failed (still name e)

end FeatureGate.Interleaving
