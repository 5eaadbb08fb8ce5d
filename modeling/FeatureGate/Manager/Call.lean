import FeatureGate.Report

/-!
# Calls

A call on a state has an outcome, leaves a state behind, whether it fails or not, and emits
diagnostics.
-/

namespace FeatureGate

/-- What a call leaves behind. -/
structure Done (σ ε α : Type) where
  outcome : Except ε α
  after : σ
  log : List Diagnostic

def Call (σ ε α : Type) : Type := σ → Done σ ε α

namespace Call

variable {σ ε α β : Type}

def run (c : Call σ ε α) (s : σ) : Done σ ε α := c s

def ok (a : α) : Call σ ε α := fun s => ⟨.ok a, s, []⟩

def fail (e : ε) : Call σ ε α := fun s => ⟨.error e, s, []⟩

/-- Goes on with a second call, in the state that the first one left, if the first one succeeds. -/
def andThen (c : Call σ ε α) (f : α → Call σ ε β) : Call σ ε β := fun s =>
  let first := c s
  match first.outcome with
  | .error e => ⟨.error e, first.after, first.log⟩
  | .ok a =>
    let second := f a first.after
    ⟨second.outcome, second.after, first.log ++ second.log⟩

instance : Monad (Call σ ε) where
  pure := ok
  bind := andThen

/-- The state. -/
def state : Call σ ε σ := fun s => ⟨.ok s, s, []⟩

def modify (f : σ → σ) : Call σ ε Unit := fun s => ⟨.ok (), f s, []⟩

def emit (d : Diagnostic) : Call σ ε Unit := fun s => ⟨.ok (), s, [d]⟩

/-- A report that leaves the state as it is. -/
def ofReport (r : Report ε α) : Call σ ε α := fun s => ⟨r.outcome, s, r.log⟩

def ofExcept (r : Except ε α) : Call σ ε α := fun s => ⟨r, s, []⟩

@[simp] theorem run_pure (a : α) (s : σ) : run (pure a : Call σ ε α) s = ⟨.ok a, s, []⟩ := rfl

@[simp] theorem run_fail (e : ε) (s : σ) : run (fail e : Call σ ε α) s = ⟨.error e, s, []⟩ := rfl

@[simp] theorem run_state (s : σ) : run (state : Call σ ε σ) s = ⟨.ok s, s, []⟩ := rfl

@[simp] theorem run_modify (f : σ → σ) (s : σ) :
    run (modify f : Call σ ε Unit) s = ⟨.ok (), f s, []⟩ := rfl

@[simp] theorem run_emit (d : Diagnostic) (s : σ) :
    run (emit d : Call σ ε Unit) s = ⟨.ok (), s, [d]⟩ := rfl

@[simp] theorem run_ofReport (r : Report ε α) (s : σ) :
    run (ofReport r : Call σ ε α) s = ⟨r.outcome, s, r.log⟩ := rfl

theorem run_bind_of_ok {c : Call σ ε α} {s : σ} {a : α} (h : (c.run s).outcome = .ok a)
    (f : α → Call σ ε β) :
    (c >>= f).run s =
      ⟨((f a).run (c.run s).after).outcome, ((f a).run (c.run s).after).after,
        (c.run s).log ++ ((f a).run (c.run s).after).log⟩ := by
  simp only [bind, run] at h ⊢
  simp only [andThen, h]

theorem run_bind_of_error {c : Call σ ε α} {s : σ} {e : ε} (h : (c.run s).outcome = .error e)
    (f : α → Call σ ε β) :
    (c >>= f).run s = ⟨.error e, (c.run s).after, (c.run s).log⟩ := by
  simp only [bind, run] at h ⊢
  simp only [andThen, h]

end Call

end FeatureGate
