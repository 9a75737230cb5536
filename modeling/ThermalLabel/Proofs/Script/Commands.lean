import ThermalLabel.Proofs.Label.Commands
import ThermalLabel.Proofs.Script.Execution
import ThermalLabel.Proofs.Script.SettingsBlock
import ThermalLabel.Proofs.Script.Texts

/-!
# Commands of scripts

A text in a script can neither forge a command nor hide one.  As long as no step is raw and no text
holds a mark, the label of a script is a sequence of commands that can be told from the steps
without looking into their texts, except for the number of lines of a wrapped one.
-/
namespace ThermalLabel.Script

open Text (Unmarked Commands Adds)

/-- The commands of a step: those of the operation that it calls. -/
def stepCodes (step : Value) : List Text :=
  match callOf? step with
  | some call => call.operation.codes call.arguments.isCentred call.arguments.placedLines.length
  | none => []

/-- No text that the step gives holds a mark. -/
def UnmarkedStep : Value → Prop
  | .object fields => ∀ entry ∈ fields, ∀ s ∈ entry.2.text?, s.Unmarked
  | _ => True

instance (step : Value) : Decidable (UnmarkedStep step) := by
  unfold UnmarkedStep
  split <;> infer_instance

def isRaw : Value → Bool
  | .object fields => operation? fields == some .raw
  | _ => false

theorem argumentsOf_unmarked {op : Operation} {fields : Fields}
    (h : UnmarkedStep (.object fields)) (p : Parameter) (s : Text)
    (hs : argumentsOf op fields p = .text s) : s.Unmarked := by
  rcases text_of_argumentsOf hs with ⟨name, hmem⟩ | hplain
  · exact h _ hmem s rfl
  · exact hplain.unmarked

theorem spells_of_runStep {config : Config} {step : Value} {out : Output}
    (hm : config.maxWidth.Unmarked) (hraw : isRaw step = false) (hstep : UnmarkedStep step)
    (h : runStep config 0 step = .ok out) : Spells out.fragments (stepCodes step) := by
  obtain ⟨call, hcall, hout⟩ := runStep_eq_ok_iff.mp h
  obtain ⟨o, ho, hfragments, -⟩ := ofEmission_eq_ok hout
  have hfit := fits_of_callOf? hcall
  rw [hfragments, stepCodes, hcall]
  obtain ⟨fields, op, rfl, hop, -, rfl⟩ := callOf?_eq_some_iff.mp hcall
  have hne : op ≠ .raw := by
    rintro rfl
    simp [isRaw, hop] at hraw
  exact emit_spells hm hfit hne (argumentsOf_unmarked hstep) ho

theorem spells_of_runSteps {config : Config} {index : Nat} {steps : List Value} {out : Output}
    (hm : config.maxWidth.Unmarked)
    (hsteps : ∀ step ∈ steps, isRaw step = false ∧ UnmarkedStep step)
    (h : runSteps config index steps = .ok out) :
    Spells out.fragments (steps.flatMap stepCodes) := by
  refine runSteps_induction (P := fun steps out =>
    (∀ step ∈ steps, isRaw step = false ∧ UnmarkedStep step) →
      Spells out.fragments (steps.flatMap stepCodes)) ?_ ?_ h hsteps
  · exact fun _ => ⟨[], [], rfl, .nil, rfl⟩
  · intro step rest first others hfirst hrest hall
    rw [List.forall_mem_cons] at hall
    exact (spells_of_runStep hm hall.1.1 hall.1.2 hfirst).append (hrest hall.2)

theorem maxWidth_unmarked {block : Value} {defaults config : Config}
    (h : readConfig block defaults = .ok config) : config.maxWidth.Unmarked := by
  obtain ⟨w, hw, -⟩ := maxWidth_of_readConfig h
  exact Value.unmarked_of_whole? hw

theorem separator_unmarked (config : Config) : Unmarked (Text.ofString config.separator) := by
  unfold Config.separator
  split <;> decide

/-- The label of a script without raw steps and without marks in its texts, cut before every mark,
falls into the commands of its steps, in their order.  Every piece is a command: nothing stands
before the first one, and no text adds, hides or splits one. -/
theorem run_commands {script : Value} {defaults : Config} {steps : List Value} {result : Result}
    (hsteps : steps? script = some steps) (hrun : run script defaults = .ok result)
    (hraw : ∀ step ∈ steps, isRaw step = false) (htexts : ∀ step ∈ steps, UnmarkedStep step) :
    (Text.cut result.document).map Text.code? = (steps.flatMap stepCodes).map some := by
  rw [run_of_steps?_eq_some hsteps] at hrun
  cases hconfig : readConfig (settingsBlock script) defaults with
  | error e => simp [hconfig, bind, Except.bind] at hrun
  | ok config =>
    rw [hconfig] at hrun
    obtain ⟨out, texts, hout, hfragments, rfl⟩ := runUnder_eq_ok_iff.mp hrun
    obtain ⟨groups, texts', hfragments', hall, hcodes⟩ :=
      spells_of_runSteps (maxWidth_unmarked hconfig)
        (fun step h => ⟨hraw step h, htexts step h⟩) hout
    rw [hfragments, List.map_inj_right (by simp)] at hfragments'
    subst hfragments'
    rw [Text.flatMap_commands hall (separator_unmarked config), hcodes]

/-- A centred text that looks like the parameters of a command, on a label of its own. -/
def trickySteps : List Value :=
  [.object [("op", .text "start")],
    .object [("op", .text "write_text_at"), ("x", .integer 0), ("y", .integer 30),
      ("value", .text "FD_5E, 1"), ("justification", .text "center")],
    .object [("op", .text "end")]]

theorem run_commands_tricky : ∃ result,
    run (.object [("operations", .list trickySteps)]) {} = .ok result ∧
      (Text.cut result.document).map Text.code? =
        (["XA", "FO", "FB", "AO", "FH", "FD", "FS", "JS", "XZ"] : List Text).map some := by
  obtain ⟨result, hrun⟩ : ∃ result,
      run (.object [("operations", .list trickySteps)]) {} = .ok result := ⟨_, rfl⟩
  have hcodes : trickySteps.flatMap stepCodes =
      (["XA", "FO", "FB", "AO", "FH", "FD", "FS", "JS", "XZ"] : List Text) := by decide
  rw [← hcodes]
  exact ⟨result, hrun, run_commands rfl hrun (by decide) (by decide)⟩

end ThermalLabel.Script
