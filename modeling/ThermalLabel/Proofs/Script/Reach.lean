import ThermalLabel.Proofs.Label.Blocks
import ThermalLabel.Proofs.Script.Performs

/-!
# How far the settings reach

The settings of a script replace those among the defaults that they name, and that is all that the
defaults do.  The resolution does not matter to a script at all, and the width of the label matters
only to its centred lines, as the width of their blocks.
-/
namespace ThermalLabel

namespace Form

/-- A list of forms with a separator behind each. -/
def rendered (separator : Text) (forms : List Form) : Form :=
  forms.flatMap (· ++ [.fixed separator])

theorem blocks_rendered (separator : Text) (forms : List Form) :
    (rendered separator forms).blocks = (forms.map blocks).sum := by
  induction forms with
  | nil => rfl
  | cons form rest ih =>
    rw [rendered, List.flatMap_cons, blocks_append, ← rendered, ih, List.map_cons, List.sum_cons]
    simp [blocks]

theorem fill_rendered (width separator : Text) (forms : List Form) :
    (rendered separator forms).fill width =
      (forms.map (fill width)).flatMap (· ++ separator) := by
  induction forms with
  | nil => rfl
  | cons form rest ih =>
    rw [rendered, List.flatMap_cons, fill_append, ← rendered, ih, List.map_cons, List.flatMap_cons,
      fill_append]
    simp [fill, Segment.write]

end Form

namespace Script

variable {config config' defaults defaults' : Config} {script script' : Value}
  {steps : List Value}

/-- The lines that a step emits with centre justification. -/
def centredLines (step : Value) : Nat :=
  ((callOf? step).map Call.centredLines).getD 0

/-- What steps add under one width and under another are the same forms, filled with the one and the
other width.  They have as many blocks as there are centred lines. -/
def AddsForms (steps : List Value) (out : Output) (forms : List Form) : Prop :=
  (forms.map Form.blocks).sum = (steps.map centredLines).sum ∧
    ∀ (config : Config) (width : Text),
      ((steps.map centredLines).sum ≠ 0 → config.maxWidth.toText = .ok width) →
      runSteps config 0 steps =
        .ok ⟨forms.map fun form => .text (form.fill width), out.endingYs⟩

theorem runStep_forms {step : Value} {out : Output} (h : runStep config 0 step = .ok out) :
    ∃ forms : List Form, (forms.map Form.blocks).sum = centredLines step ∧
      ∀ (config' : Config) (width : Text),
        (centredLines step ≠ 0 → config'.maxWidth.toText = .ok width) →
        runStep config' 0 step =
          .ok ⟨forms.map fun form => .text (form.fill width), out.endingYs⟩ := by
  obtain ⟨call, hcall, hout⟩ := runStep_eq_ok_iff.mp h
  obtain ⟨o, ho, -, hys⟩ := ofEmission_eq_ok hout
  obtain ⟨forms, hblocks, hemit⟩ := exists_emitsForms (fits_of_callOf? hcall) ho
  have hcentred : centredLines step = call.centredLines := by rw [centredLines, hcall]; rfl
  rw [hcentred]
  refine ⟨forms, hblocks, fun config' width hw => ?_⟩
  obtain ⟨hfragments, houtcome⟩ := hemit config' width hw
  rw [runStep_of_callOf? config' 0 hcall, Output.ofEmission, houtcome, hfragments, hys]
  cases o <;> rfl

theorem runSteps_forms {out : Output} (h : runSteps config 0 steps = .ok out) :
    ∃ forms, AddsForms steps out forms := by
  refine runSteps_induction (P := fun steps out => ∃ forms, AddsForms steps out forms) ?_ ?_ h
  · exact ⟨[], rfl, fun _ _ _ => rfl⟩
  · rintro step rest first others hfirst ⟨forms', hblocks', hrest⟩
    obtain ⟨forms, hblocks, hstep⟩ := runStep_forms hfirst
    refine ⟨forms ++ forms', by simp [hblocks, hblocks'], fun config' width hw => ?_⟩
    rw [List.map_cons, List.sum_cons] at hw
    have hone := hstep config' width fun hne => hw (by omega)
    have hothers := hrest config' width fun hne => hw (by omega)
    exact runSteps_cons_eq_ok.mpr ⟨_, _, hone, runSteps_ok_at hothers 1, by simp [Output.append]⟩

theorem separator_congr (h : config'.suppressSeparator = config.suppressSeparator) :
    config'.separator = config.separator := by
  rw [Config.separator, Config.separator, h]

/-- Runs see nothing of the settings but the width and the separator. -/
theorem runUnder_congr (hwidth : config'.maxWidth = config.maxWidth)
    (hseparator : config'.suppressSeparator = config.suppressSeparator) (steps : List Value) :
    runUnder config' steps = runUnder config steps := by
  rw [runUnder, runUnder, runSteps_congr hwidth, separator_congr hseparator]

theorem AddsForms.runUnder {out : Output} {forms : List Form} (h : AddsForms steps out forms)
    {config : Config} {width : Text}
    (hw : (steps.map centredLines).sum ≠ 0 → config.maxWidth.toText = .ok width) :
    runUnder config steps =
      .ok ⟨(Form.rendered config.separator forms).fill width, out.endingYs⟩ := by
  have htexts : (⟨forms.map fun form => .text (form.fill width), out.endingYs⟩ : Output).fragments =
      (forms.map (Form.fill width)).map .text := by
    simp
  rw [runUnder_of_runSteps (h.2 config width hw) htexts, Form.fill_rendered]

/-- The steps of a script without its settings. -/
def withoutSettings (steps : List Value) : Value :=
  .object [("operations", .list steps)]

theorem Performs.withoutSettings (h : Performs script defaults steps config) :
    Performs (withoutSettings steps) (override (settingsOf (settingsBlock script)) defaults) steps
      config := by
  obtain ⟨-, -, hcheck⟩ := readConfig_eq_ok_iff.mp h.settings
  exact ⟨rfl, hcheck⟩

/-- A script that reads well under some defaults does so under all valid ones. -/
theorem Performs.of_valid (h : Performs script defaults steps config) (hd : defaults'.Valid) :
    Performs script defaults' steps
      (override (settingsOf (settingsBlock script)) defaults') := by
  obtain ⟨hblock, hknown, hcheck⟩ := readConfig_eq_ok_iff.mp h.settings
  obtain ⟨hdpi, hwidth, hquiet, -⟩ := checkConfig_eq_ok_iff.mp hcheck
  obtain ⟨dpi, width, quiet, hdpi', hwidth', rfl⟩ := hd
  have hset {name : Text} {good : Value → Bool} {v v' : Value}
      (hv : good (((settingsOf (settingsBlock script)).get? name).getD v) = true)
      (hv' : good v' = true) :
      good (((settingsOf (settingsBlock script)).get? name).getD v') = true := by
    cases hown : (settingsOf (settingsBlock script)).get? name with
    | none => exact hv'
    | some own =>
      rw [hown] at hv
      exact hv
  refine ⟨h.steps, readConfig_eq_ok_iff.mpr ⟨hblock, hknown, checkConfig_eq_ok_iff.mpr
    ⟨hset hdpi ?_, hset hwidth ?_, hset hquiet rfl, rfl⟩⟩⟩
  · simpa [isPositiveWhole, Value.whole?] using hdpi'
  · simpa [isPositiveWhole, Value.whole?] using hwidth'

/-- Defaults for which the script has settings of its own do not matter. -/
theorem Performs.of_all_settings (h : Performs script defaults steps config)
    (hall : ∀ name ∈ settingNames, ((settingsOf (settingsBlock script)).get? name).isSome = true)
    (defaults' : Config) : Performs script defaults' steps config := by
  obtain ⟨hblock, hknown, hcheck⟩ := readConfig_eq_ok_iff.mp h.settings
  have hoverride : override (settingsOf (settingsBlock script)) defaults' =
      override (settingsOf (settingsBlock script)) defaults := by
    have hget (name : Text) (hname : name ∈ settingNames) (v v' : Value) :
        ((settingsOf (settingsBlock script)).get? name).getD v' =
          ((settingsOf (settingsBlock script)).get? name).getD v := by
      obtain ⟨own, hown⟩ := Option.isSome_iff_exists.mp (hall name hname)
      rw [hown, Option.getD_some, Option.getD_some]
    rw [override, override, hget "dpi" (by decide) defaults.dpi,
      hget "max_width" (by decide) defaults.maxWidth,
      hget "suppress_separator" (by decide) defaults.suppressSeparator]
  exact ⟨h.steps, readConfig_eq_ok_iff.mpr ⟨hblock, hknown, hoverride ▸ hcheck⟩⟩

/-- What an accepted script gives is settled by its steps and by the settings that result from its
own and the defaults: it gives the same without settings of its own under the defaults overridden
by them, and the same under all defaults if it sets everything.  It reads well under all valid
defaults.  Among the settings the resolution never matters, and the width only to centred lines:
the label is a form with a block for each of them, filled with the width. -/
theorem run_reach {result : Result} (h : Performs script defaults steps config)
    (hrun : run script defaults = .ok result) :
    run (withoutSettings steps) (override (settingsOf (settingsBlock script)) defaults) =
      .ok result ∧
    (∀ defaults', defaults'.Valid → Performs script defaults' steps
      (override (settingsOf (settingsBlock script)) defaults')) ∧
    ((∀ name ∈ settingNames, ((settingsOf (settingsBlock script)).get? name).isSome = true) →
      ∀ defaults', run script defaults' = .ok result) ∧
    ∃ form : Form, form.blocks = (steps.map centredLines).sum ∧
      ∀ script' defaults' config', Performs script' defaults' steps config' →
        config'.suppressSeparator = config.suppressSeparator →
        (config'.maxWidth = config.maxWidth ∨ (steps.map centredLines).sum = 0 →
          run script' defaults' = .ok result) ∧
        ∀ width, config'.maxWidth.toText = .ok width →
          run script' defaults' = .ok ⟨form.fill width, result.endingYs⟩ := by
  have hunder : runUnder config steps = .ok result := by rw [← h.run_eq, hrun]
  obtain ⟨out, texts, hout, -, hparts⟩ := runUnder_eq_ok_iff.mp hunder
  have hys : result.endingYs = out.endingYs := by rw [hparts]
  obtain ⟨forms, hadds⟩ := runSteps_forms hout
  refine ⟨by rw [h.withoutSettings.run_eq, hunder], fun _ => h.of_valid,
    fun hall defaults' => ?_, Form.rendered config.separator forms, ?_, ?_⟩
  · rw [(h.of_all_settings hall defaults').run_eq, hunder]
  · rw [Form.blocks_rendered, hadds.1]
  · intro script' defaults' config' h' hseparator
    rw [h'.run_eq]
    refine ⟨?_, fun width hwidth => ?_⟩
    · rintro (hsame | hnone)
      · rw [runUnder_congr hsame hseparator, hunder]
      · have hvacuous (config : Config) :
            (steps.map centredLines).sum ≠ 0 → config.maxWidth.toText = .ok [] :=
          fun hne => absurd hnone hne
        rw [hadds.runUnder (hvacuous config), Except.ok.injEq] at hunder
        rw [hadds.runUnder (hvacuous config'), separator_congr hseparator, hunder]
    · rw [hadds.runUnder fun _ => hwidth, separator_congr hseparator, hys]

/-- A centred title on labels of two widths. -/
theorem run_reach_title :
    let script : Value := .object [("operations", .list [.object [("op", .text "start")],
      .object [("op", .text "write_text_at"), ("x", .integer 0), ("y", .integer 30),
        ("value", .text "Sample"), ("justification", .text "Center")],
      .object [("op", .text "end")]])]
    ∃ (form : Form) (ys : List Value), form.blocks = 1 ∧
      run script {} = .ok ⟨form.fill "710", ys⟩ ∧
      run script { dpi := .integer 300, maxWidth := .integer 500 } =
        .ok ⟨form.fill "500", ys⟩ := by
  intro script
  obtain ⟨steps, hsteps⟩ : ∃ steps, steps? script = some steps := ⟨_, rfl⟩
  obtain ⟨result, hrun⟩ : ∃ result, run script {} = .ok result := ⟨_, rfl⟩
  obtain ⟨-, hvalid, -, form, hblocks, hform⟩ := run_reach ⟨hsteps, rfl⟩ hrun
  have hnarrow := hvalid { dpi := .integer 300, maxWidth := .integer 500 }
    ⟨300, 500, true, by decide, by decide, rfl⟩
  have hone : (steps.map centredLines).sum = 1 := by
    cases hsteps
    decide
  exact ⟨form, result.endingYs, hblocks.trans hone,
    (hform script {} {} ⟨hsteps, rfl⟩ rfl).2 _ rfl, (hform script _ _ hnarrow rfl).2 _ rfl⟩

end Script

end ThermalLabel
