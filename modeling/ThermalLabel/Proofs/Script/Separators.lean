import ThermalLabel.Proofs.Label.Sources
import ThermalLabel.Proofs.Script.Performs
import ThermalLabel.Proofs.Script.Texts
import ThermalLabel.Proofs.Text.Split

/-!
# Separators

Separators change the looks of a label and nothing else.  No operation knows of them, so a script
emits the same fragments with and without them; and no operation emits a line feed of its own, so
that line feeds are separators, and the fragments can be told apart, unless a text holds one.
-/
namespace ThermalLabel

namespace Text

/-- What is filtered out of a separator does not show in filtered texts. -/
theorem filter_flatMap_append {α : Type} {keep : α → Bool} {separator : List α}
    (h : separator.filter keep = []) (texts : List (List α)) :
    (texts.flatMap (· ++ separator)).filter keep = texts.flatten.filter keep := by
  simp [List.flatMap_def, List.filter_flatten, Function.comp_def, h]

/-- The text holds no line feed. -/
def LineFree (s : Text) : Prop :=
  ∀ c ∈ s, c ≠ .char '\n'

instance (s : Text) : Decidable s.LineFree :=
  inferInstanceAs (Decidable (∀ c ∈ s, c ≠ .char '\n'))

theorem Plain.lineFree {s : Text} (h : s.Plain) : s.LineFree := by
  rintro c hc rfl
  obtain ⟨d, hd, hplain⟩ := h _ hc
  cases hd
  cases hplain

end Text

namespace Script

variable {config config' defaults defaults' : Config} {script script' : Value}
  {steps : List Value}

/-- The texts that a step gives for its arguments. -/
def givenTexts : Value → List Text
  | .object fields => fields.filterMap (·.2.text?)
  | _ => []

/-- No text that the step gives holds a line feed. -/
def LineFreeStep (step : Value) : Prop :=
  ∀ s ∈ givenTexts step, s.LineFree

instance (step : Value) : Decidable (LineFreeStep step) :=
  inferInstanceAs (Decidable (∀ s ∈ givenTexts step, s.LineFree))

/-- A step emits line feeds only if its texts hold some. -/
theorem lineFree_of_runStep {index : Nat} {step : Value} {out : Output} {w : Int}
    (hm : config.maxWidth.whole? = some w) (hstep : LineFreeStep step)
    (h : runStep config index step = .ok out) :
    ∀ t, Value.text t ∈ out.fragments → t.LineFree := by
  intro t ht
  obtain ⟨call, hcall, hout⟩ := runStep_eq_ok_iff.mp h
  obtain ⟨o, ho, hfragments, -⟩ := ofEmission_eq_ok hout
  rw [hfragments] at ht
  have hsource := source_of_emit hm (fits_of_callOf? hcall) ho ht
  obtain ⟨fields, op, rfl, -, -, rfl⟩ := callOf?_eq_some_iff.mp hcall
  rintro c hc rfl
  rcases hsource _ hc with hown | ⟨p, s, hs, hmem⟩
  · cases hown
  · rcases text_of_argumentsOf hs with ⟨name, hfield⟩ | hplain
    · exact hstep s (List.mem_filterMap.mpr ⟨_, hfield, rfl⟩) _ hmem rfl
    · exact hplain.lineFree _ hmem rfl

theorem lineFree_of_runSteps {index : Nat} {out : Output} {w : Int}
    (hm : config.maxWidth.whole? = some w) (hsteps : ∀ step ∈ steps, LineFreeStep step)
    (h : runSteps config index steps = .ok out) :
    ∀ t, Value.text t ∈ out.fragments → t.LineFree := by
  refine runSteps_induction (P := fun steps out => (∀ step ∈ steps, LineFreeStep step) →
    ∀ t, Value.text t ∈ out.fragments → t.LineFree) ?_ ?_ h hsteps
  · exact fun _ t ht => absurd ht List.not_mem_nil
  · intro step rest first others hfirst hrest hall t ht
    rw [List.forall_mem_cons] at hall
    rcases List.mem_append.mp ht with ht | ht
    · exact lineFree_of_runStep hm hall.1 hfirst t ht
    · exact hrest hall.2 t ht

/-- The fragments that the steps emit, in their order. -/
def Emits (config : Config) (steps : List Value) (fragments : List Text) : Prop :=
  ∃ out, runSteps config 0 steps = .ok out ∧ out.fragments = fragments.map .text

/-- The same steps once with separators and once without.  Either both runs succeed or none does;
they give the same positions, and the same label but for line feeds.  If no text holds a line feed,
the label with separators, split at its line feeds, gives the emitted fragments and an empty rest,
and the label without them is made of the same fragments. -/
theorem run_separators (h : Performs script defaults steps config)
    (h' : Performs script' defaults' steps config') (hwidth : config'.maxWidth = config.maxWidth)
    (hquiet : config.suppressSeparator = .flag true)
    (hspaced : config'.suppressSeparator = .flag false) :
    ((∃ result, run script defaults = .ok result) ↔
      ∃ result, run script' defaults' = .ok result) ∧
    ∀ quiet spaced, run script defaults = .ok quiet → run script' defaults' = .ok spaced →
      spaced.endingYs = quiet.endingYs ∧
      spaced.document.filter (· ≠ .char '\n') = quiet.document.filter (· ≠ .char '\n') ∧
      ((∀ step ∈ steps, LineFreeStep step) → ∃ fragments, Emits config steps fragments ∧
        Text.split (.char '\n') spaced.document = fragments ++ [[]] ∧
        quiet.document = fragments.flatten) := by
  have hnone : Text.ofString config.separator = [] := by
    rw [Config.separator, hquiet]
    rfl
  have hfeed : Text.ofString config'.separator = [.char '\n'] := by
    rw [Config.separator, hspaced]
    rfl
  have hsteps : runSteps config' 0 steps = runSteps config 0 steps := runSteps_congr hwidth 0 steps
  rw [h.run_eq, h'.run_eq]
  cases hrun : runSteps config 0 steps with
  | error failure =>
    rw [hrun] at hsteps
    rw [runUnder_eq_error_iff.mpr hrun, runUnder_eq_error_iff.mpr hsteps]
    simp
  | ok out =>
    rw [hrun] at hsteps
    obtain ⟨fragments, hfragments⟩ := fragments_of_runSteps hrun
    rw [runUnder_of_runSteps hrun hfragments, runUnder_of_runSteps hsteps hfragments, hnone, hfeed]
    refine ⟨by simp, ?_⟩
    rintro quiet spaced ⟨rfl⟩ ⟨rfl⟩
    refine ⟨rfl, ?_, fun hfree => ⟨fragments, ⟨out, hrun, hfragments⟩, ?_, ?_⟩⟩
    · rw [Text.filter_flatMap_append (by simp), Text.filter_flatMap_append (by simp)]
    · refine Text.split_flatMap_mark fun fragment hfragment hmem => ?_
      obtain ⟨w, hw, -⟩ := maxWidth_of_readConfig h.settings
      have htext : Value.text fragment ∈ out.fragments :=
        hfragments ▸ List.mem_map_of_mem hfragment
      exact lineFree_of_runSteps hw hfree hrun fragment htext _ hmem rfl
    · simp [List.flatMap_def]

/-- A small label, once with separators and once without. -/
theorem run_separators_small :
    let script : Value := .object [("operations", .list [.object [("op", .text "start")],
      .object [("op", .text "write_text"), ("value", .text "A_1")],
      .object [("op", .text "end")]])]
    ∃ quiet spaced, run (suppressing true script) {} = .ok quiet ∧
      run (suppressing false script) {} = .ok spaced ∧ spaced.endingYs = quiet.endingYs ∧
      ∃ fragments, Text.split (.char '\n') spaced.document = fragments ++ [[]] ∧
        quiet.document = fragments.flatten := by
  intro script
  obtain ⟨steps, hsteps⟩ : ∃ steps, steps? script = some steps := ⟨_, rfl⟩
  have hperforms : Performs script {} steps {} := ⟨hsteps, rfl⟩
  obtain ⟨hboth, hcompare⟩ :=
    run_separators (hperforms.suppressing true) (hperforms.suppressing false) rfl rfl rfl
  obtain ⟨quiet, hquiet⟩ : ∃ quiet, run (suppressing true script) {} = .ok quiet := by
    rw [(hperforms.suppressing true).run_eq]
    cases hsteps
    exact ⟨_, rfl⟩
  obtain ⟨spaced, hspaced⟩ := hboth.mp ⟨quiet, hquiet⟩
  obtain ⟨hys, -, hsplit⟩ := hcompare quiet spaced hquiet hspaced
  have hfree : ∀ step ∈ steps, LineFreeStep step := by
    cases hsteps
    decide
  obtain ⟨fragments, -, hfragments⟩ := hsplit hfree
  exact ⟨quiet, spaced, hquiet, hspaced, hys, fragments, hfragments⟩

end Script

end ThermalLabel
