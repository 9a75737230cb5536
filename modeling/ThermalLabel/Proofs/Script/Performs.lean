import ThermalLabel.Proofs.Script.Execution
import ThermalLabel.Proofs.Script.SettingsBlock
import ThermalLabel.Proofs.Value.Unbroken

/-!
# What a script performs

All that a run takes from a script are its steps and, together with the defaults, the settings that
it runs under.  Of the settings the operations see the width alone, and rendering sees whether
separators are suppressed.
-/
namespace ThermalLabel

theorem textField_congr {config config' : Config} (h : config'.maxWidth = config.maxWidth) :
    textField config' = textField config := by
  funext orientation justification x y s
  rw [textField, textField, h]

/-- The width is all that an operation sees of the settings. -/
theorem Operation.emit_congr {config config' : Config} (h : config'.maxWidth = config.maxWidth)
    (op : Operation) (a : Arguments) : op.emit config' a = op.emit config a := by
  cases op with
  | writeTextAt | writeTextAtWithWrap => simp only [emit, textField_congr h]
  | _ => rfl

namespace Script

variable {config config' defaults : Config} {script : Value} {steps : List Value}

theorem runSteps_congr (h : config'.maxWidth = config.maxWidth) (index : Nat)
    (steps : List Value) : runSteps config' index steps = runSteps config index steps := by
  induction steps generalizing index with
  | nil => rfl
  | cons step rest ih => simp only [runSteps, runStep, Operation.emit_congr h, ih]

/-- The script has these steps and, with the defaults, asks for these settings. -/
structure Performs (script : Value) (defaults : Config) (steps : List Value) (config : Config) :
    Prop where
  steps : steps? script = some steps
  settings : readConfig (settingsBlock script) defaults = .ok config

theorem Performs.run_eq (h : Performs script defaults steps config) :
    run script defaults = runUnder config steps := by
  rw [run_of_steps?_eq_some h.steps, h.settings]
  rfl

/-- The script with its setting for separators replaced. -/
def suppressing (quiet : Bool) : Value → Value
  | .object fields =>
    let settings := settingsOf ((Fields.get? fields "config").getD .null)
    .object (Fields.set fields "config"
      (.object (Fields.set settings "suppress_separator" (.flag quiet))))
  | v => v

/-- Whether separators are suppressed has no influence on anything else that a script performs. -/
theorem Performs.suppressing (h : Performs script defaults steps config) (quiet : Bool) :
    Performs (suppressing quiet script) defaults steps
      { config with suppressSeparator := .flag quiet } := by
  have hsteps := h.steps
  have hsettings := h.settings
  cases script with
  | object fields =>
    obtain ⟨-, hknown, hcheck⟩ := readConfig_eq_ok_iff.mp hsettings
    obtain ⟨hdpi, hwidth, -, rfl⟩ := checkConfig_eq_ok_iff.mp hcheck
    rw [settingsBlock] at hknown hdpi hwidth
    have hblock : settingsBlock (Script.suppressing quiet (.object fields)) = .object
        (Fields.set (settingsOf ((Fields.get? fields "config").getD .null)) "suppress_separator"
          (.flag quiet)) := by
      simp [Script.suppressing, settingsBlock, Fields.get?_set_self]
    refine ⟨?_, readConfig_eq_ok_iff.mpr ⟨Or.inr ⟨_, hblock⟩, ?_, ?_⟩⟩
    · have hne : Text.ofString "operations" ≠ Text.ofString "config" := by decide
      rw [← hsteps, Script.suppressing, steps?, steps?, Fields.get?_set_of_ne _ _ hne]
    · rw [hblock, settingsOf, unknownNames_eq_nil_iff]
      intro entry hentry
      rcases Fields.mem_set hentry with hmem | rfl
      · exact unknownNames_eq_nil_iff.mp hknown entry hmem
      · simp [settingNames]
    · have hdpiName : Text.ofString "dpi" ≠ Text.ofString "suppress_separator" := by decide
      have hwidthName : Text.ofString "max_width" ≠ Text.ofString "suppress_separator" := by decide
      rw [hblock, settingsOf, settingsBlock, checkConfig_eq_ok_iff]
      simp only [override, Fields.get?_set_self, Fields.get?_set_of_ne _ _ hdpiName,
        Fields.get?_set_of_ne _ _ hwidthName, Option.getD_some]
      exact ⟨hdpi, hwidth, rfl, trivial⟩
  | _ => simp [steps?] at hsteps

end Script

end ThermalLabel
