import ThermalLabel.Proofs.Script.Execution
import ThermalLabel.Proofs.Script.SettingsBlock

/-!
# Validation of scripts

A script is admitted by its form alone: its settings, the operations that its steps name, and the
types of the values that they give.  `run_validates` says that this is exactly what is needed for a
result and that every other script is refused with an error of its own.  The only proviso is that
no integer that a run writes, into the label or into the text of an error, has too many digits.
-/
namespace ThermalLabel.Script

/-- A script that gives a result. -/
structure AdmittedScript (script : Value) : Prop where
  settings : AdmittedSettings (settingsOf (settingsBlock script))
  steps : ∃ steps, steps? script = some steps ∧ ∀ step ∈ steps, AdmittedStep step

/-- The values that steps write, up to the value that is shown when one of them is refused. -/
def writtenBySteps (config : Config) : List Value → List Value
  | [] => []
  | step :: rest => match callOf? step with
    | some call => call.operation.written config call.arguments ++ writtenBySteps config rest
    | none => (shown? step).toList

/-- The values that a run of a script writes. -/
def writtenByScript (defaults : Config) (script : Value) : List Value :=
  let settings := settingsOf (settingsBlock script)
  match steps? script with
  | some steps =>
    if AdmittedSettings settings then writtenBySteps (override settings defaults) steps
    else (refusedSetting? settings).toList
  | none => []

/-- A fitting call whose values can be written adds its emission. -/
theorem exists_output_of_fits {config : Config} {op : Operation} {a : Arguments}
    (hfit : op.Fits a) (hw : ∀ v ∈ op.written config a, v.Short) :
    ∃ out, Output.ofEmission (op.emit config a) = .ok out := by
  obtain ⟨o, ho⟩ := emit_of_fits hfit hw
  obtain ⟨out, hout, -⟩ := ofEmission_of_ok ho
  exact ⟨out, hout⟩

/-- Steps run to their end if all of them are admitted, and the first one that is not ends the run
with an error. -/
theorem runSteps_validates {config : Config} (index : Nat) {steps : List Value}
    (hw : ∀ v ∈ writtenBySteps config steps, v.Short) :
    ((∀ step ∈ steps, AdmittedStep step) → ∃ out, runSteps config index steps = .ok out) ∧
    ((¬ ∀ step ∈ steps, AdmittedStep step) →
      ∃ e, runSteps config index steps = .error (.error e)) := by
  induction steps generalizing index with
  | nil => exact ⟨fun _ => ⟨_, rfl⟩, fun h => absurd (by simp) h⟩
  | cons step rest ih =>
    rw [List.forall_mem_cons, admittedStep_iff]
    cases hcall : callOf? step with
    | none =>
      have hrefused := readStep_of_not_admitted index hcall
      obtain ⟨e, he⟩ := hrefused.of_short fun v hv => hw v (by simpa [writtenBySteps, hcall] using hv)
      refine ⟨fun h => absurd h.1 (by simp), fun _ => ⟨e, ?_⟩⟩
      rw [runSteps, runStep, he]
      rfl
    | some call =>
      simp only [writtenBySteps, hcall, List.mem_append] at hw
      obtain ⟨first, hfirst⟩ := exists_output_of_fits (fits_of_callOf? hcall)
        fun v hv => hw v (Or.inl hv)
      have hstep := (runStep_of_callOf? config index hcall).trans hfirst
      obtain ⟨hgood, hbad⟩ := ih (index + 1) fun v hv => hw v (Or.inr hv)
      constructor
      · rintro ⟨-, hrest⟩
        obtain ⟨others, hothers⟩ := hgood hrest
        exact ⟨_, runSteps_cons_eq_ok.mpr ⟨first, others, hstep, hothers, rfl⟩⟩
      · intro h
        obtain ⟨e, he⟩ := hbad fun hrest => h ⟨⟨call, rfl⟩, hrest⟩
        exact ⟨e, by rw [runSteps, hstep, he]; rfl⟩

/-- A script under valid defaults gives a result if it is admitted, and is refused with an error of
its own if it is not.  There is no third way: binding, converting and emitting what passed the
checks cannot fail.  A block of settings that is neither missing nor an object is outside this
statement, and an integer that is too long to be written is the only fault there is. -/
theorem run_validates {script : Value} {defaults : Config} (hd : defaults.Valid)
    (hblock : settingsBlock script = .null ∨ ∃ settings, settingsBlock script = .object settings)
    (hw : ∀ v ∈ writtenByScript defaults script, v.Short) :
    ((∃ result, run script defaults = .ok result) ↔ AdmittedScript script) ∧
      (¬ AdmittedScript script → ∃ e, run script defaults = .error (.error e)) := by
  suffices hboth : (AdmittedScript script → ∃ result, run script defaults = .ok result) ∧
      (¬ AdmittedScript script → ∃ e, run script defaults = .error (.error e)) by
    refine ⟨⟨fun ⟨result, hresult⟩ => ?_, hboth.1⟩, hboth.2⟩
    by_cases hadmitted : AdmittedScript script
    · exact hadmitted
    · obtain ⟨e, he⟩ := hboth.2 hadmitted
      rw [hresult] at he
      cases he
  cases hsteps : steps? script with
  | none =>
    refine ⟨fun ⟨_, steps, hsome, _⟩ => ?_, fun _ => run_of_steps?_eq_none hsteps defaults⟩
    rw [hsteps] at hsome
    cases hsome
  | some steps =>
    have hiff : AdmittedScript script ↔ AdmittedSettings (settingsOf (settingsBlock script)) ∧
        ∀ step ∈ steps, AdmittedStep step := by
      refine ⟨fun ⟨hsettings, steps', hsome, hall⟩ => ?_, fun ⟨hsettings, hall⟩ =>
        ⟨hsettings, steps, hsteps, hall⟩⟩
      rw [hsteps] at hsome
      cases hsome
      exact ⟨hsettings, hall⟩
    obtain ⟨hread, hrefuse⟩ := readConfig_spec hblock hd
    rw [run_of_steps?_eq_some hsteps, hiff]
    rw [writtenByScript, hsteps] at hw
    by_cases hsettings : AdmittedSettings (settingsOf (settingsBlock script))
    · simp only [hsettings, if_true] at hw
      obtain ⟨hgood, hbad⟩ := runSteps_validates 0 hw
      rw [hread hsettings]
      constructor
      · rintro ⟨-, hall⟩
        obtain ⟨out, hout⟩ := hgood hall
        obtain ⟨texts, htexts⟩ := fragments_of_runSteps hout
        exact ⟨_, runUnder_of_runSteps hout htexts⟩
      · intro hnot
        obtain ⟨e, he⟩ := hbad fun hall => hnot ⟨hsettings, hall⟩
        exact ⟨e, runUnder_eq_error_iff.mpr he⟩
    · simp only [hsettings, if_false] at hw
      refine ⟨fun h => absurd h.1 hsettings, fun _ => ?_⟩
      obtain ⟨e, he⟩ := (hrefuse hsettings).of_short fun v hv => hw v (by simpa using hv)
      exact ⟨e, by rw [he]; rfl⟩

/-- A label with a centred title. -/
def titleScript : Value :=
  .object [("operations", .list [
    .object [("op", .text "start")],
    .object [("op", .text "set_font"), ("height", .integer 40)],
    .object [("op", .text "write_text_at"), ("x", .integer 0), ("y", .integer 30),
      ("value", .text "Sample"), ("justification", .text "center")],
    .object [("op", .text "end")]])]

theorem run_validates_title :
    (∀ v ∈ writtenByScript {} titleScript, v.Short) ∧
      ((∃ result, run titleScript {} = .ok result) ↔ AdmittedScript titleScript) ∧
      (¬ AdmittedScript titleScript → ∃ e, run titleScript {} = .error (.error e)) :=
  ⟨by decide, run_validates ⟨203, 710, true, by decide, by decide, rfl⟩ (Or.inl rfl) (by decide)⟩

end ThermalLabel.Script
