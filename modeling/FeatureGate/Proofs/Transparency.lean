import FeatureGate.Proofs.Coherence

/-!
# Transparency of the cache

The plain manager keeps one map from names to configs and compiles anew for every question. It
answers a call at once, in the first step of the call, which for a question is the look-up. Moved by
the same moves it returns what the manager with a cache returns: calls in flight are held together by
`Simulates`, which every move keeps.
-/

namespace FeatureGate.Interleaving

/-! ## The plain manager -/

/-- What is answered about a name with a compiled feature. -/
def Question.about (builder : ContextBuilder) (name : String) (f : Feature) :
    Question → Reply Feature
  | feature => ⟨.feature (.ok (some f)), false⟩
  | has raw => ⟨.granted (((builder raw).mapError (.context name)).map f.grants), true⟩

/-- What is answered about a name with this config, or with none. -/
def Question.reply (builder : ContextBuilder) (name : String) (config : Option Json)
    (q : Question) : Reply Feature :=
  match config with
  | none => ⟨q.absent, false⟩
  | some config =>
    match (Feature.compile name config).outcome with
    | .error e => ⟨q.refused (.compile name e), false⟩
    | .ok f => q.about builder name f

/-- The reply to a call, and the configs after it. -/
def Request.plainly (builder : ContextBuilder) (settings : ManagerSettings)
    (configs : KeyMap Json) : Request → Reply Feature × KeyMap Json
  | write w =>
    match w.accepted settings.validateOnAdd with
    | .ok entries => (⟨w.confirm (.ok entries), false⟩, configs.insertMany entries)
    | .error e => (⟨w.confirm (.error e), false⟩, configs)
  | reset => (⟨.done (.ok ()), false⟩, ∅)
  | validateAll =>
    (⟨.counted ((configs.entries.findSome? fun e => compileError? e.1 e.2).elim
      (.ok configs.size) .error), false⟩, configs)
  | ask name q => (q.reply builder name (configs.get? name), configs)

inductive PlainCall where
  | begun (r : Request)
  | returned (reply : Reply Feature)

def PlainCall.advance (builder : ContextBuilder) (settings : ManagerSettings)
    (configs : KeyMap Json) : PlainCall → PlainCall × KeyMap Json
  | begun r =>
    (returned (r.plainly builder settings configs).1, (r.plainly builder settings configs).2)
  | returned reply => (returned reply, configs)

structure Plain where
  builder : ContextBuilder
  settings : ManagerSettings
  configs : KeyMap Json
  calls : List PlainCall

namespace Plain

def start (builder : ContextBuilder) (settings : ManagerSettings) : Plain :=
  ⟨builder, settings, ∅, []⟩

def move (p : Plain) : Move → Plain
  | .begin r => { p with calls := p.calls ++ [.begun r] }
  | .advance i =>
    match p.calls[i]? with
    | none => p
    | some c =>
      let next := c.advance p.builder p.settings p.configs
      { p with configs := next.2, calls := p.calls.set i next.1 }

def run (p : Plain) (moves : List Move) : Plain := moves.foldl move p

theorem run_append (p : Plain) (before after : List Move) :
    p.run (before ++ after) = (p.run before).run after := List.foldl_append

theorem move_advance {p : Plain} {i : Nat} {c : PlainCall} (h : p.calls[i]? = some c) :
    p.move (.advance i) =
      { p with
        configs := (c.advance p.builder p.settings p.configs).2
        calls := p.calls.set i (c.advance p.builder p.settings p.configs).1 } := by
  simp only [move, h]

theorem move_frame (p : Plain) (v : Move) :
    (p.move v).builder = p.builder ∧ (p.move v).settings = p.settings := by
  cases v with
  | begin r => exact ⟨rfl, rfl⟩
  | advance i =>
    cases h : p.calls[i]? with
    | none => simp only [move, h, and_self]
    | some c => simp only [move_advance h, and_self]

theorem run_frame (p : Plain) (moves : List Move) :
    (p.run moves).builder = p.builder ∧ (p.run moves).settings = p.settings := by
  induction moves generalizing p with
  | nil => exact ⟨rfl, rfl⟩
  | cons v moves ih =>
    obtain ⟨builder, settings⟩ := p.move_frame v
    have rest := ih (p.move v)
    rw [builder, settings] at rest
    exact rest

/-- A call stays where it is while others move. -/
theorem move_other {p : Plain} {i : Nat} {c : PlainCall} (h : p.calls[i]? = some c) {v : Move}
    (other : v ≠ .advance i) : (p.move v).calls[i]? = some c := by
  cases v with
  | begin r =>
    have bound := (List.getElem?_eq_some_iff.mp h).1
    rw [move, List.getElem?_append_left bound, h]
  | advance j =>
    have differs : j ≠ i := by
      rintro rfl
      exact other rfl
    cases hj : p.calls[j]? with
    | none => simp only [move, hj, h]
    | some d => rw [move_advance hj, List.getElem?_set_ne differs, h]

theorem run_other {p : Plain} {i : Nat} {c : PlainCall} (h : p.calls[i]? = some c)
    {moves : List Move} (others : ∀ v ∈ moves, v ≠ .advance i) :
    (p.run moves).calls[i]? = some c := by
  induction moves generalizing p with
  | nil => exact h
  | cons v moves ih =>
    have next := move_other h (others v List.mem_cons_self)
    exact ih next fun u hu => others u (List.mem_cons_of_mem v hu)

/-- A reply stays. -/
theorem run_returned {p : Plain} {i : Nat} {reply : Reply Feature}
    (h : p.calls[i]? = some (.returned reply)) (moves : List Move) :
    (p.run moves).calls[i]? = some (.returned reply) := by
  induction moves generalizing p with
  | nil => exact h
  | cons v moves ih =>
    apply ih
    by_cases same : v = .advance i
    · subst same
      have bound := (List.getElem?_eq_some_iff.mp h).1
      rw [move_advance h]
      exact List.getElem?_set_self bound
    · exact move_other h same

end Plain

/-! ## Simulation -/

namespace Answer

/-- The same answer about another kind of compiled feature. -/
def map {φ ψ : Type} (f : φ → ψ) : Answer φ → Answer ψ
  | done outcome => done outcome
  | counted outcome => counted outcome
  | feature outcome => feature (outcome.map (Option.map f))
  | granted outcome => granted outcome

end Answer

/-- The reply without the number of the compilation that made the feature. -/
def Reply.plain (reply : Reply Compiled) : Reply Feature :=
  ⟨reply.answer.map Compiled.feature, reply.built⟩

/-- The configs of a store, without their revisions. -/
def plainConfigs (st : Store) : KeyMap Json := st.configs.map StoredConfig.config

theorem plainConfigs_insertMany (st : Store) (entries : List (String × Json)) :
    plainConfigs (st.insertMany entries) = (plainConfigs st).insertMany entries := by
  induction entries generalizing st with
  | nil => rfl
  | cons e rest ih =>
    have inserted : plainConfigs (st.insert e.1 e.2) = (plainConfigs st).insert e.1 e.2 :=
      KeyMap.map_insert _ _ _ _
    have next := ih (st.insert e.1 e.2)
    rw [inserted] at next
    exact next

theorem plainly_ask (builder : ContextBuilder) (settings : ManagerSettings) (st : Store)
    (name : String) (q : Question) :
    (Request.ask name q).plainly builder settings (plainConfigs st) =
      (q.reply builder name ((st.configs.get? name).map StoredConfig.config), plainConfigs st) := by
  rw [Request.plainly, plainConfigs, KeyMap.get?_map]

/-- What the plain manager has already replied to a call that is still on its way. -/
inductive Agrees (builder : ContextBuilder) : Stage → PlainCall → Prop where
  | begun (r : Request) : Agrees builder (.begun r) (.begun r)
  | snapshot (name : String) (q : Question) (entry : StoredConfig) :
      Agrees builder (.snapshot name q entry) (.returned (q.reply builder name (some entry.config)))
  | offering (name : String) (q : Question) (entry : StoredConfig) (c : Compiled) :
      Agrees builder (.offering name q entry c)
        (.returned (q.reply builder name (some entry.config)))
  | judging (name : String) (raw : KeyMap Json) (c : Compiled) :
      Agrees builder (.judging name raw c)
        (.returned ((Question.has raw).about builder name c.feature))
  | returned (reply : Reply Compiled) : Agrees builder (.returned reply) (.returned reply.plain)

variable {builder : ContextBuilder}

theorem Question.reply_of_ok {name : String} {config : Json} {f : Feature}
    (h : compilation name config = .ok f) (q : Question) :
    q.reply builder name (some config) = q.about builder name f := by
  simp only [reply, compilation_eq_ok_iff.mp h]

theorem Question.reply_of_error {name : String} {config : Json} {e : ManagerError}
    (h : compilation name config = .error e) (q : Question) :
    q.reply builder name (some config) = ⟨q.refused e, false⟩ := by
  unfold compilation at h
  cases outcome : (Feature.compile name config).outcome with
  | ok f =>
    rw [outcome] at h
    cases h
  | error e' =>
    rw [outcome] at h
    have same : .compile name e' = e := Except.error.inj h
    simp only [reply, outcome, same]

theorem agrees_found (name : String) (c : Compiled) (q : Question) :
    Agrees builder (.found name c q) (.returned (q.about builder name c.feature)) := by
  cases q with
  | feature => exact .returned _
  | has raw => exact .judging name raw c

theorem plain_confirm (w : Write) (batch : Except ManagerError (List (String × Json))) :
    (⟨w.confirm batch, false⟩ : Reply Compiled).plain = ⟨w.confirm batch, false⟩ := by
  cases w <;> rfl

theorem agrees_confirm (w : Write) (batch : Except ManagerError (List (String × Json))) :
    Agrees builder (.returned ⟨w.confirm batch, false⟩) (.returned ⟨w.confirm batch, false⟩) := by
  rw [← plain_confirm w batch]
  exact .returned _

/-- One step on both sides. -/
theorem Step.agrees {ledger : List (String × Json)} {m m' : RuleManager} {s t : Stage}
    {c : PlainCall} (h : Step m s t m') (store : Recorded ledger m.store) (sound : s.Sound ledger)
    (agrees : Agrees m.builder s c) :
    Agrees m.builder t (c.advance m.builder m.settings (plainConfigs m.store)).1 ∧
      (c.advance m.builder m.settings (plainConfigs m.store)).2 = plainConfigs m'.store := by
  cases h with
  | wrote w =>
    cases agrees
    simp only [PlainCall.advance, Request.plainly]
    cases w.accepted m.settings.validateOnAdd with
    | error e => exact ⟨agrees_confirm w _, rfl⟩
    | ok entries => exact ⟨agrees_confirm w _, (plainConfigs_insertMany _ _).symm⟩
  | cleared =>
    cases agrees
    exact ⟨.returned _, rfl⟩
  | validated =>
    cases agrees
    refine ⟨?_, rfl⟩
    simp only [PlainCall.advance, Request.plainly, plainConfigs, KeyMap.size_map]
    simp only [KeyMap.map, List.findSome?_map]
    exact .returned _
  | absent name q unconfigured =>
    cases agrees
    refine ⟨?_, rfl⟩
    rw [PlainCall.advance, plainly_ask, unconfigured]
    cases q <;> exact .returned _
  | hit name q found compiled =>
    cases agrees
    obtain ⟨entry, configured, compiles⟩ := store.sound name found compiled
    refine ⟨?_, rfl⟩
    rw [PlainCall.advance, plainly_ask, configured, Option.map_some, Question.reply_of_ok compiles]
    exact agrees_found name found q
  | looked name q entry configured =>
    cases agrees
    refine ⟨?_, rfl⟩
    rw [PlainCall.advance, plainly_ask, configured]
    exact .snapshot name q entry
  | failed name q entry e faulty =>
    cases agrees
    refine ⟨?_, rfl⟩
    simp only [PlainCall.advance, Question.reply_of_error faulty]
    cases q <;> exact .returned _
  | compiled name q entry f compiles =>
    cases agrees
    exact ⟨.offering name q entry _, rfl⟩
  | kept name q entry offered | stale name q entry offered =>
    cases agrees
    refine ⟨?_, rfl⟩
    simp only [PlainCall.advance, Question.reply_of_ok sound.2]
    exact agrees_found name offered q
  | outrun name q entry offered first current compiled =>
    cases agrees
    -- the feature kept first was compiled from the config of the same revision
    obtain ⟨stored, configured, compiles⟩ := store.sound name first compiled
    have same := store.current sound.1 current
    rw [configured] at same
    obtain rfl := Option.some.inj same
    refine ⟨?_, rfl⟩
    simp only [PlainCall.advance, Question.reply_of_ok compiles]
    exact agrees_found name first q
  | judged name raw found =>
    cases agrees
    exact ⟨.returned _, rfl⟩
  | rested reply =>
    cases agrees
    exact ⟨.returned _, rfl⟩

/-- The two managers after the same moves. -/
structure Simulates (w : World) (p : Plain) : Prop where
  builder : p.builder = w.manager.builder
  settings : p.settings = w.manager.settings
  configs : p.configs = plainConfigs w.manager.store
  length : p.calls.length = w.calls.length
  calls : ∀ (i : Nat) s c, w.calls[i]? = some s → p.calls[i]? = some c →
    Agrees w.manager.builder s c

theorem simulates_start (builder : ContextBuilder) (settings : ManagerSettings) :
    Simulates (.start builder settings) (.start builder settings) where
  builder := rfl
  settings := rfl
  configs := rfl
  length := rfl
  calls := by intro i s c hs; simp [World.start] at hs

theorem Simulates.begin {w : World} {p : Plain} (h : Simulates w p) (r : Request) :
    Simulates (w.move (.begin r)) (p.move (.begin r)) where
  builder := h.builder
  settings := h.settings
  configs := h.configs
  length := by simp [World.move, Plain.move, h.length]
  calls := by
    intro i s c hs hc
    simp only [World.move, Plain.move, List.getElem?_append, h.length] at hs hc
    split at hs
    · rename_i bound
      rw [if_pos bound] at hc
      exact h.calls i s c hs hc
    · rename_i beyond
      rw [if_neg beyond] at hc
      obtain rfl := List.mem_singleton.mp (List.mem_of_getElem? hs)
      obtain rfl := List.mem_singleton.mp (List.mem_of_getElem? hc)
      exact .begun r

theorem Simulates.move {ledger : List (String × Json)} {w : World} {p : Plain}
    (h : Simulates w p) (sound : w.Sound ledger) (v : Move) : Simulates (w.move v) (p.move v) := by
  cases v with
  | begin r => exact h.begin r
  | advance i =>
    cases hs : w.calls[i]? with
    | none =>
      have hc : p.calls[i]? = none := by
        rw [List.getElem?_eq_none_iff] at hs ⊢
        rw [h.length]
        exact hs
      simpa only [World.move, Plain.move, hs, hc] using h
    | some s =>
      have bound : i < p.calls.length := by
        rw [h.length]
        exact (List.getElem?_eq_some_iff.mp hs).1
      have hc : p.calls[i]? = some p.calls[i] := List.getElem?_eq_getElem bound
      have step := advance_step s w.manager
      obtain ⟨builder, settings⟩ := step.frame
      obtain ⟨agrees, configs⟩ := step.agrees sound.store (sound.calls s (List.mem_of_getElem? hs))
        (h.calls i s _ hs hc)
      rw [World.move_advance hs, Plain.move_advance hc, h.builder, h.settings, h.configs]
      refine ⟨builder.symm, settings.symm, configs, by simp [h.length], ?_⟩
      intro j t d ht hd
      dsimp only at ht hd ⊢
      rw [builder]
      by_cases same : i = j
      · subst same
        rw [List.getElem?_set_self (h.length ▸ bound)] at ht
        rw [List.getElem?_set_self bound] at hd
        rw [← Option.some.inj ht, ← Option.some.inj hd]
        exact agrees
      · rw [List.getElem?_set_ne same] at ht hd
        exact h.calls j t d ht hd

theorem Simulates.run {ledger : List (String × Json)} {w : World} {p : Plain}
    (h : Simulates w p) (sound : w.Sound ledger) (moves : List Move) :
    Simulates (w.run moves) (p.run moves) := by
  induction moves generalizing ledger w p with
  | nil => exact h
  | cons v moves ih => exact ih (h.move sound v) (sound.move v)

theorem simulates_run (builder : ContextBuilder) (settings : ManagerSettings)
    (moves : List Move) :
    Simulates ((World.start builder settings).run moves)
      ((Plain.start builder settings).run moves) :=
  (simulates_start builder settings).run (World.sound_start builder settings) moves

/-! ## Transparency -/

theorem Plain.begun {builder : ContextBuilder} {settings : ManagerSettings} {before mid : List Move}
    {r : Request} {i : Nat} (place : i = ((World.start builder settings).run before).calls.length)
    (waiting : ∀ v ∈ mid, v ≠ .advance i) :
    ((start builder settings).run (before ++ .begin r :: mid)).calls[i]? = some (.begun r) := by
  have length := (simulates_run builder settings before).length
  rw [run_append]
  apply run_other (p := ((start builder settings).run before).move (.begin r)) _ waiting
  simp [move, place, length]

/-- Let a call be begun, and let other calls move before its first step, its look-up if it is a
question, and after it. What the call returns is what the plain manager replies with the configs that
it holds at that first step, and after three more steps of its own the call has returned. -/
theorem returns_plainly (builder : ContextBuilder) (settings : ManagerSettings)
    (before mid rest : List Move) (r : Request) (i : Nat)
    (place : i = ((World.start builder settings).run before).calls.length)
    (waiting : ∀ v ∈ mid, v ≠ .advance i) :
    let configs := ((Plain.start builder settings).run (before ++ .begin r :: mid)).configs
    let after := (World.start builder settings).run
      (before ++ .begin r :: mid ++ .advance i :: rest)
    (∀ reply, after.calls[i]? = some (.returned reply) →
      reply.plain = (r.plainly builder settings configs).1) ∧
    (3 ≤ rest.countP (·.advances i) → ∃ reply, after.calls[i]? = some (.returned reply)) := by
  intro configs after
  constructor
  · intro reply returned
    have frame := (Plain.start builder settings).run_frame (before ++ .begin r :: mid)
    have begun := Plain.begun (r := r) place waiting
    have replied : ((Plain.start builder settings).run
        (before ++ .begin r :: mid ++ .advance i :: rest)).calls[i]? =
        some (.returned (r.plainly builder settings configs).1) := by
      rw [Plain.run_append]
      apply Plain.run_returned (p := Plain.move _ (.advance i))
      rw [Plain.move_advance begun, frame.1, frame.2]
      exact List.getElem?_set_self (List.getElem?_eq_some_iff.mp begun).1
    have simulates := simulates_run builder settings
      (before ++ .begin r :: mid ++ .advance i :: rest)
    have agrees := simulates.calls i _ _ returned replied
    generalize (r.plainly builder settings configs).1 = expected at agrees
    cases agrees
    rfl
  · intro enough
    have returns := ((World.start builder settings).run before).returns r
      (mid ++ .advance i :: rest) (by
        rw [← place, List.countP_append, List.countP_cons]
        have own : Move.advances i (.advance i) = true := by simp [Move.advances]
        simp only [own, if_true]
        omega)
    rw [← place] at returns
    have joined : after = (((World.start builder settings).run before).move (.begin r)).run
        (mid ++ .advance i :: rest) := by
      simp only [after, World.run_append]
      rfl
    rw [joined]
    exact returns

/-- A config that is overwritten by a faulty one between its look-up and the offer of what it compiled
to is still the one that the call answers for. -/
theorem returns_plainly_overwritten :
    ∃ reply, ((World.start .asIs .default).run
        [.begin (.write (.insert "f" (.object []))), .advance 0, .begin (.ask "f" .feature),
          .begin (.write (.insert "f" (.object [("segments", .bool true)]))), .advance 1,
          .advance 2, .advance 1, .advance 1, .advance 1]).calls[1]? = some (.returned reply) ∧
      reply.plain = ⟨.feature (.ok (some ⟨"f", []⟩)), false⟩ := by
  have waiting : ∀ v ∈ [Move.begin (.write (.insert "f" (.object [("segments", .bool true)])))],
      v ≠ .advance 1 := by
    intro v hv
    obtain rfl := List.mem_singleton.mp hv
    exact Move.noConfusion
  obtain ⟨same, returns⟩ := returns_plainly .asIs .default
    [.begin (.write (.insert "f" (.object []))), .advance 0]
    [.begin (.write (.insert "f" (.object [("segments", .bool true)])))]
    [.advance 2, .advance 1, .advance 1, .advance 1] (.ask "f" .feature) 1 rfl waiting
  obtain ⟨reply, returned⟩ := returns (by decide)
  exact ⟨reply, returned, same reply returned⟩

end FeatureGate.Interleaving
