import ThermalLabel.Proofs.Label.Blocks
import ThermalLabel.Proofs.Script.Performs

/-!
# Scripts under other defaults

Valid defaults never decide whether a script is accepted: a script that fails under some of them
fails in the same way under all others whose width can be written.  Defaults that are out of range
are held against every script that does not replace them.
-/
namespace ThermalLabel.Script

/-- The two fail in the same way, or neither of them fails. -/
def FailAlike {α β : Type} (r : Checked α) (r' : Checked β) : Prop :=
  ∀ failure, r = .error failure ↔ r' = .error failure

namespace FailAlike

variable {α β α' β' : Type}

theorem refl (r : Checked α) : FailAlike r r :=
  fun _ => Iff.rfl

theorem ok (a : α) (b : β) : FailAlike (.ok a : Checked α) (.ok b : Checked β) := by
  intro failure
  constructor <;> nofun

theorem refuseShowing (v : Value) (e : Text → Error) :
    FailAlike (refuseShowing v e : Checked α) (refuseShowing v e : Checked β) := by
  intro failure
  unfold Script.refuseShowing
  cases v.quoted <;> simp [liftFault, refuse, Bind.bind, Except.bind]

theorem bind {r : Checked α} {r' : Checked β} (h : FailAlike r r') {next : α → Checked α'}
    {next' : β → Checked β'}
    (hnext : ∀ a b, r = .ok a → r' = .ok b → FailAlike (next a) (next' b)) :
    FailAlike (r >>= next) (r' >>= next') := by
  cases r with
  | error failure =>
    rw [(h failure).mp rfl]
    exact fun _ => by simp [Bind.bind, Except.bind]
  | ok a =>
    cases r' with
    | error failure => cases (h failure).mpr rfl
    | ok b => exact hnext a b rfl rfl

end FailAlike

variable {config config' defaults defaults' : Config} {script block : Value} {steps : List Value}

/-! ### Settings -/

/-- A value that is given is checked, and a positive one that stands in for it passes. -/
theorem requirePositive_alike (name : String) (given : Option Value) {v v' : Value}
    (hv : isPositiveWhole v = true) (hv' : isPositiveWhole v' = true) :
    FailAlike (requirePositive name (given.getD v)) (requirePositive name (given.getD v')) := by
  cases given with
  | some own => exact .refl _
  | none =>
    rw [Option.getD_none, Option.getD_none, (requirePositive_eq_ok_iff name).mpr hv,
      (requirePositive_eq_ok_iff name).mpr hv']
    exact .refl _

theorem checkConfig_alike (settings : Fields) (hd : defaults.Valid) (hd' : defaults'.Valid) :
    FailAlike (checkConfig (override settings defaults))
      (checkConfig (override settings defaults')) := by
  obtain ⟨dpi, width, quiet, hdpi, hwidth, rfl⟩ := hd
  obtain ⟨dpi', width', quiet', hdpi', hwidth', rfl⟩ := hd'
  have hwhole {n : Int} (hn : 0 < n) : isPositiveWhole (.integer n) = true := by
    simpa [isPositiveWhole, Value.whole?] using hn
  rw [checkConfig, checkConfig]
  apply (requirePositive_alike _ _ (hwhole hdpi) (hwhole hdpi')).bind
  intro _ _ _ _
  apply (requirePositive_alike _ _ (hwhole hwidth) (hwhole hwidth')).bind
  intro _ _ _ _
  rw [override, override]
  cases settings.get? "suppress_separator" with
  | none => exact .ok _ _
  | some own =>
    cases hown : isFlag own with
    | true =>
      simp only [Option.getD_some, hown, if_true]
      exact .ok _ _
    | false =>
      simp only [Option.getD_some, hown, Bool.false_eq_true, if_false]
      exact .refuseShowing own _

theorem readConfig_alike (block : Value) (hd : defaults.Valid) (hd' : defaults'.Valid) :
    FailAlike (readConfig block defaults) (readConfig block defaults') := by
  unfold readConfig
  split
  · exact checkConfig_alike [] hd hd'
  · split
    · split
      · exact checkConfig_alike _ hd hd'
      · exact .refl _
    · exact .refl _

theorem maxWidth_eq_of_readConfig (h : readConfig block defaults = .ok config) :
    config.maxWidth = ((settingsOf block).get? "max_width").getD defaults.maxWidth := by
  obtain ⟨-, -, hcheck⟩ := readConfig_eq_ok_iff.mp h
  obtain ⟨-, -, -, rfl⟩ := checkConfig_eq_ok_iff.mp hcheck
  rfl

/-! ### Runs -/

/-- The widths are the same, or both can be written. -/
def WidthsAlike (config config' : Config) : Prop :=
  config'.maxWidth = config.maxWidth ∨ config.maxWidth.Short ∧ config'.maxWidth.Short

theorem runStep_alike (h : WidthsAlike config config') (index : Nat) (step : Value) :
    FailAlike (runStep config index step) (runStep config' index step) := by
  apply (FailAlike.refl (readStep index step)).bind
  intro call call' hcall hcall'
  obtain rfl : call = call' := Except.ok.inj (hcall.symm.trans hcall')
  have hfit := fits_of_callOf? (readStep_eq_ok_iff.mp hcall)
  have houtcome : (call.operation.emit config' call.arguments).outcome =
      (call.operation.emit config call.arguments).outcome := by
    rcases h with hsame | ⟨hshort, hshort'⟩
    · rw [Operation.emit_congr hsame]
    · obtain ⟨width, hw⟩ := Value.toText_of_short hshort
      obtain ⟨width', hw'⟩ := Value.toText_of_short hshort'
      exact outcome_congr hfit hw hw'
  unfold Output.ofEmission
  rw [houtcome]
  split
  · exact .ok _ _
  · exact .ok _ _
  · exact fun _ => by simp

theorem runSteps_alike (h : WidthsAlike config config') (index : Nat) (steps : List Value) :
    FailAlike (runSteps config index steps) (runSteps config' index steps) := by
  induction steps generalizing index with
  | nil => exact .refl _
  | cons step rest ih =>
    apply (runStep_alike h index step).bind
    intro _ _ _ _
    apply (ih (index + 1)).bind
    intro _ _ _ _
    exact .ok _ _

/-- Which of the valid defaults a script runs under has no influence on whether and how it fails. -/
theorem run_alike (script : Value) (hd : defaults.Valid) (hd' : defaults'.Valid)
    (hshort : defaults.maxWidth.Short) (hshort' : defaults'.maxWidth.Short) :
    FailAlike (run script defaults) (run script defaults') := by
  cases hsteps : steps? script with
  | none =>
    unfold run
    split
    · split
      · rename_i hlist
        simp [steps?, hlist] at hsteps
      · exact fun _ => Iff.rfl
    · exact fun _ => Iff.rfl
  | some steps =>
    rw [run_of_steps?_eq_some hsteps, run_of_steps?_eq_some hsteps]
    apply (readConfig_alike _ hd hd').bind
    intro config config' hconfig hconfig'
    have hwidths : WidthsAlike config config' := by
      rw [WidthsAlike, maxWidth_eq_of_readConfig hconfig, maxWidth_eq_of_readConfig hconfig']
      cases (settingsOf (settingsBlock script)).get? "max_width" with
      | some own => exact .inl rfl
      | none => exact .inr ⟨hshort, hshort'⟩
    intro failure
    rw [runUnder_eq_error_iff, runUnder_eq_error_iff]
    exact runSteps_alike hwidths 0 steps failure

/-! ### Defaults out of range -/

/-- A measure out of range is shown in the refusal. -/
theorem requirePositive_of_nonpos (name : String) {n : Int} (hn : n ≤ 0)
    (hw : Number.writable n = true) :
    ∃ shown, requirePositive name (.integer n) =
      .error (.error (.settingNotPositive name shown)) := by
  obtain ⟨shown, hshown⟩ := Value.quoted_of_short _ (Value.short_integer.mpr hw)
  have hnot : isPositive (.integer n) = false := by
    simpa [isPositive_eq, isPositiveWhole, Value.whole?] using hn
  refine ⟨shown, ?_⟩
  simp [requirePositive, hnot, refuseShowing, hshown, liftFault, refuse, Bind.bind, Except.bind]

/-- A script without settings of its own answers for the defaults. -/
theorem run_of_nonpos {dpi width : Int} (quiet : Value) (hsteps : steps? script = some steps)
    (hblock : settingsBlock script = .null) (hdpi : Number.writable dpi = true)
    (hwidth : Number.writable width = true) (h : dpi ≤ 0 ∨ width ≤ 0) :
    ∃ name shown, run script ⟨.integer dpi, .integer width, quiet⟩ =
      .error (.error (.settingNotPositive name shown)) := by
  have hread : readConfig .null ⟨.integer dpi, .integer width, quiet⟩ =
      checkConfig ⟨.integer dpi, .integer width, quiet⟩ := rfl
  rw [run_of_steps?_eq_some hsteps, hblock, hread, checkConfig]
  by_cases hpos : 0 < dpi
  · have hok : requirePositive "dpi" (.integer dpi) = .ok () :=
      (requirePositive_eq_ok_iff "dpi").mpr (by simpa [isPositiveWhole, Value.whole?] using hpos)
    obtain ⟨shown, hrefused⟩ := requirePositive_of_nonpos "max_width" (by omega) hwidth
    refine ⟨"max_width", shown, ?_⟩
    simp only [hok, hrefused, Bind.bind, Except.bind]
  · obtain ⟨shown, hrefused⟩ := requirePositive_of_nonpos "dpi" (by omega) hdpi
    refine ⟨"dpi", shown, ?_⟩
    simp only [hrefused, Bind.bind, Except.bind]

end ThermalLabel.Script
