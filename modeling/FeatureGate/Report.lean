import FeatureGate.Diagnostic

/-!
# Reports

The outcome of a computation that may fail, with the diagnostics emitted on the way, in order. A
failure ends the computation and keeps what was emitted before it.
-/

namespace FeatureGate

structure Report (ε α : Type) where
  outcome : Except ε α
  log : List Diagnostic

namespace Report

variable {ε α β : Type}

def ok (a : α) : Report ε α := ⟨.ok a, []⟩

def fail (e : ε) : Report ε α := ⟨.error e, []⟩

def emit (d : Diagnostic) : Report ε Unit := ⟨.ok (), [d]⟩

/-- Goes on with a second computation if the first one succeeds. -/
def andThen (r : Report ε α) (f : α → Report ε β) : Report ε β :=
  match r.outcome with
  | .error e => ⟨.error e, r.log⟩
  | .ok a => ⟨(f a).outcome, r.log ++ (f a).log⟩

instance : Monad (Report ε) where
  pure := ok
  bind := andThen

def ofExcept : Except ε α → Report ε α
  | .ok a => ok a
  | .error e => fail e

/-- The same report about errors of another type. -/
def mapError {ε' : Type} (f : ε → ε') (r : Report ε α) : Report ε' α :=
  ⟨r.outcome.mapError f, r.log⟩

@[simp] theorem outcome_pure (a : α) : (pure a : Report ε α).outcome = .ok a := rfl

@[simp] theorem log_pure (a : α) : (pure a : Report ε α).log = [] := rfl

@[simp] theorem outcome_fail (e : ε) : (fail e : Report ε α).outcome = .error e := rfl

@[simp] theorem log_fail (e : ε) : (fail e : Report ε α).log = [] := rfl

@[simp] theorem outcome_emit (d : Diagnostic) : (emit d : Report ε Unit).outcome = .ok () := rfl

@[simp] theorem log_emit (d : Diagnostic) : (emit d : Report ε Unit).log = [d] := rfl

theorem bind_of_ok {r : Report ε α} {a : α} (h : r.outcome = .ok a) (f : α → Report ε β) :
    r >>= f = ⟨(f a).outcome, r.log ++ (f a).log⟩ := by
  simp only [bind, andThen, h]

theorem bind_of_error {r : Report ε α} {e : ε} (h : r.outcome = .error e) (f : α → Report ε β) :
    r >>= f = ⟨.error e, r.log⟩ := by
  simp only [bind, andThen, h]

theorem outcome_bind (r : Report ε α) (f : α → Report ε β) :
    (r >>= f).outcome = r.outcome.bind fun a => (f a).outcome := by
  cases h : r.outcome with
  | error e => simp only [bind_of_error h, Except.bind]
  | ok a => simp only [bind_of_ok h, Except.bind]

theorem outcome_bind_eq_ok_iff {r : Report ε α} {f : α → Report ε β} {b : β} :
    (r >>= f).outcome = .ok b ↔ ∃ a, r.outcome = .ok a ∧ (f a).outcome = .ok b := by
  rw [outcome_bind]
  cases r.outcome with
  | error e => simp [Except.bind]
  | ok a => simp [Except.bind]

@[simp] theorem outcome_ofExcept (r : Except ε α) : (ofExcept r).outcome = r := by
  cases r <;> rfl

theorem outcome_mapError {ε' : Type} (f : ε → ε') (r : Report ε α) :
    (r.mapError f).outcome = r.outcome.mapError f := rfl

end Report

end FeatureGate
