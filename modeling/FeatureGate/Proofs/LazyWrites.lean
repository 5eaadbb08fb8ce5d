import FeatureGate.Proofs.Interleaving
import FeatureGate.Proofs.Reading

/-!
# Writes that do not validate

No compilation ends without a record in the log. A write leaves none if configs are not validated
when they are added, whatever it reads and stores: it compiles nothing.
-/

namespace FeatureGate

/-! ## Records of compilations -/

/-- Whether a diagnostic records that a compilation has ended, well or not. -/
def Diagnostic.endsCompilation : Diagnostic → Bool
  | featureCompiled .. | compileFailed .. => true
  | _ => false

/-- Whether a log has no record of a compilation. -/
def Uncompiled (log : List Diagnostic) : Prop := ∀ d ∈ log, d.endsCompilation = false

theorem uncompiled_nil : Uncompiled [] := nofun

theorem uncompiled_singleton {d : Diagnostic} (h : d.endsCompilation = false) : Uncompiled [d] :=
  List.forall_mem_singleton.mpr h

theorem Uncompiled.append {first rest : List Diagnostic} (h : Uncompiled first)
    (h' : Uncompiled rest) : Uncompiled (first ++ rest) :=
  List.forall_mem_append.mpr ⟨h, h'⟩

section Bind

variable {σ ε α β : Type}

theorem Report.mem_log_bind {r : Report ε α} {f : α → Report ε β} {a : α} (h : r.outcome = .ok a)
    {d : Diagnostic} (hd : d ∈ (f a).log) : d ∈ (r >>= f).log := by
  rw [bind_of_ok h]
  exact List.mem_append_right _ hd

theorem Report.uncompiled_bind {r : Report ε α} {f : α → Report ε β} (first : Uncompiled r.log)
    (rest : ∀ a, Uncompiled (f a).log) : Uncompiled (r >>= f).log := by
  cases h : r.outcome with
  | error e =>
    rw [bind_of_error h]
    exact first
  | ok a =>
    rw [bind_of_ok h]
    exact first.append (rest a)

theorem Call.uncompiled_bind {c : Call σ ε α} {f : α → Call σ ε β} {s : σ}
    (first : Uncompiled (c.run s).log)
    (rest : ∀ a, (c.run s).outcome = .ok a → Uncompiled ((f a).run (c.run s).after).log) :
    Uncompiled ((c >>= f).run s).log := by
  cases h : (c.run s).outcome with
  | error e =>
    rw [run_bind_of_error h]
    exact first
  | ok a =>
    rw [run_bind_of_ok h]
    exact first.append (rest a h)

end Bind

/-- No compilation ends without a record. -/
theorem recorded_compileConfig (name : String) (config : Json) :
    ∃ d ∈ (compileConfig name config).log, d.endsCompilation = true := by
  cases outcome : (Feature.compile name config).outcome with
  | error e =>
    simp only [compileConfig, outcome]
    exact ⟨.compileFailed name e, List.mem_append_right _ List.mem_cons_self, rfl⟩
  | ok f =>
    obtain ⟨fragments, items, compiled, -⟩ := Feature.compile_eq_ok_iff.mp outcome
    simp only [compileConfig, outcome]
    refine ⟨.featureCompiled name f.segments.length, ?_, rfl⟩
    apply Report.mem_log_bind ((Report.outcome_ofExcept _).trans items)
    apply Report.mem_log_bind compiled
    exact List.mem_cons_self

/-! ## Writes without validation -/

theorem uncompiled_checkConfig (name : String) (config : Json) :
    Uncompiled (checkConfig false name config).log := by
  unfold checkConfig
  cases config.isObject with
  | true => exact uncompiled_nil
  | false => exact uncompiled_singleton rfl

theorem uncompiled_checkConfigs (entries : List (String × Json)) :
    Uncompiled (checkConfigs false entries).log := by
  induction entries with
  | nil => exact uncompiled_nil
  | cons e rest ih =>
    exact Report.uncompiled_bind (uncompiled_checkConfig e.1 e.2) fun _ => ih

theorem uncompiled_features (content : String) (format : DocumentFormat) :
    Uncompiled (Document.features content format).log := by
  have nothing : ∀ {α : Type} (r : Except DocumentError α), Uncompiled (Report.ofExcept r).log := by
    intro α r
    cases r <;> exact uncompiled_nil
  refine Report.uncompiled_bind (nothing _) fun members => ?_
  refine Report.uncompiled_bind (nothing _) fun entries => ?_
  split
  · exact uncompiled_nil
  · exact uncompiled_singleton rfl

namespace RuleManager

variable {m : RuleManager}

theorem uncompiled_insert (deferred : m.settings.validateOnAdd = false) (name : String)
    (config : Json) : Uncompiled ((insert name config).run m).log := by
  refine Call.uncompiled_bind uncompiled_nil ?_
  rintro _ ⟨⟩
  rw [deferred]
  refine Call.uncompiled_bind (uncompiled_checkConfig name config) fun _ _ => ?_
  exact uncompiled_singleton rfl

theorem uncompiled_extend (deferred : m.settings.validateOnAdd = false)
    (entries : List (String × Json)) : Uncompiled ((extend entries).run m).log := by
  refine Call.uncompiled_bind uncompiled_nil ?_
  rintro _ ⟨⟩
  rw [deferred]
  refine Call.uncompiled_bind (uncompiled_checkConfigs entries) fun _ _ => ?_
  exact uncompiled_singleton rfl

theorem uncompiled_loadDocument (deferred : m.settings.validateOnAdd = false) (content : String)
    (format : DocumentFormat) : Uncompiled ((loadDocument content format).run m).log := by
  refine Call.uncompiled_bind (uncompiled_features content format) fun entries _ => ?_
  refine Call.uncompiled_bind (uncompiled_extend deferred entries) fun _ _ => ?_
  exact uncompiled_singleton rfl

theorem uncompiled_loadFile (deferred : m.settings.validateOnAdd = false) (files : Files)
    (path : String) : Uncompiled ((loadFile files path).run m).log := by
  unfold loadFile
  cases fileText? files path with
  | none => exact uncompiled_nil
  | some content =>
    refine Call.uncompiled_bind (uncompiled_loadDocument deferred content _) fun _ _ => ?_
    exact uncompiled_singleton rfl

end RuleManager

namespace Interleaving

/-- What a write logs. -/
def Write.log (m : RuleManager) : Write → List Diagnostic
  | insert name config => ((RuleManager.insert name config).run m).log
  | extend entries => ((RuleManager.extend entries).run m).log
  | loadDocument content format => ((RuleManager.loadDocument content format).run m).log
  | loadFile files path => ((RuleManager.loadFile files path).run m).log

theorem Write.uncompiled (w : Write) {m : RuleManager}
    (deferred : m.settings.validateOnAdd = false) : Uncompiled (w.log m) := by
  cases w with
  | insert name config => exact RuleManager.uncompiled_insert deferred name config
  | extend entries => exact RuleManager.uncompiled_extend deferred entries
  | loadDocument content format => exact RuleManager.uncompiled_loadDocument deferred content format
  | loadFile files path => exact RuleManager.uncompiled_loadFile deferred files path

end Interleaving

end FeatureGate
