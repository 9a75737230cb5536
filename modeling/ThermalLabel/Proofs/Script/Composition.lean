import Mathlib.Data.List.Forall2
import ThermalLabel.Proofs.Script.Execution

/-!
# Scripts one after the other

Steps of two scripts with the same settings can be put into one script.  It succeeds exactly when
both do, and then its label is the one label behind the other.  A script that fails decides the
failure of every script that starts with its steps.
-/
namespace ThermalLabel.Script

def Result.append (a b : Result) : Result :=
  ⟨a.document ++ b.document, a.endingYs ++ b.endingYs⟩

/-- The script with these fields, but other steps. -/
def withSteps (fields : Fields) (steps : List Value) : Value :=
  .object (fields.set "operations" (.list steps))

/-- The step is to wrap a text. -/
def isWrap : Value → Bool
  | .object fields => operation? fields == some .writeTextAtWithWrap
  | _ => false

variable {config : Config} {a b steps : List Value}

theorem run_withSteps (fields : Fields) (steps : List Value) (defaults : Config) :
    run (withSteps fields steps) defaults =
      readConfig ((fields.get? "config").getD .null) defaults >>= fun config =>
        runUnder config steps := by
  have hsteps : steps? (withSteps fields steps) = some steps := by
    simp [steps?, withSteps, Fields.get?_set_self]
  have hne : Text.ofString "config" ≠ Text.ofString "operations" := by decide
  have hblock : settingsBlock (withSteps fields steps) = (fields.get? "config").getD .null := by
    simp [settingsBlock, withSteps, Fields.get?_set_of_ne _ _ hne]
  rw [run_of_steps?_eq_some hsteps, hblock]

/-- Two runs in a row are one run: it adds what they add, and renders it without a seam. -/
theorem runUnder_append_eq_ok_iff {result : Result} :
    runUnder config (a ++ b) = .ok result ↔ ∃ first second, runUnder config a = .ok first ∧
      runUnder config b = .ok second ∧ result = first.append second := by
  have hjoin (outA outB : Output) (textsA textsB : List Text)
      (hA : outA.fragments = textsA.map .text) (hB : outB.fragments = textsB.map .text) :
      (outA.append outB).fragments = (textsA ++ textsB).map .text := by
    rw [Output.append, hA, hB, List.map_append]
  constructor
  · intro h
    obtain ⟨out, -, hout, -, -⟩ := runUnder_eq_ok_iff.mp h
    obtain ⟨outA, outB, hA, hB, rfl⟩ := runSteps_append_eq_ok_iff.mp hout
    obtain ⟨textsA, htextsA⟩ := fragments_of_runSteps hA
    obtain ⟨textsB, htextsB⟩ := fragments_of_runSteps hB
    rw [runUnder_of_runSteps hout (hjoin outA outB textsA textsB htextsA htextsB)] at h
    refine ⟨_, _, runUnder_of_runSteps hA htextsA,
      runUnder_of_runSteps (runSteps_ok_at hB 0) htextsB, ?_⟩
    simpa [Result.append, Output.append] using (Except.ok.inj h).symm
  · rintro ⟨first, second, hfirst, hsecond, rfl⟩
    obtain ⟨outA, textsA, hA, htextsA, rfl⟩ := runUnder_eq_ok_iff.mp hfirst
    obtain ⟨outB, textsB, hB, htextsB, rfl⟩ := runUnder_eq_ok_iff.mp hsecond
    have hout : runSteps config 0 (a ++ b) = .ok (outA.append outB) :=
      runSteps_append_eq_ok_iff.mpr ⟨outA, outB, hA, runSteps_ok_at hB _, rfl⟩
    rw [runUnder_of_runSteps hout (hjoin outA outB textsA textsB htextsA htextsB)]
    simp [Result.append, Output.append]

/-- The first step that fails decides the failure, whatever comes after it. -/
theorem runUnder_append_of_error {failure : Failure} (h : runUnder config a = .error failure)
    (b : List Value) : runUnder config (a ++ b) = .error failure := by
  rw [runUnder_eq_error_iff] at h ⊢
  rw [runSteps_append, h]
  rfl

/-- A step gives a position if it wraps a text, and else none. -/
theorem endingYs_of_runStep {step : Value} {out : Output} (h : runStep config 0 step = .ok out) :
    if isWrap step then ∃ y, out.endingYs = [y] else out.endingYs = [] := by
  obtain ⟨call, hcall, hout⟩ := runStep_eq_ok_iff.mp h
  obtain ⟨o, ho, -, hys⟩ := ofEmission_eq_ok hout
  have hends := Operation.ends_of_ok (fits_of_callOf? hcall) ho
  obtain ⟨fields, op, rfl, hop, -, rfl⟩ := callOf?_eq_some_iff.mp hcall
  rw [hys, isWrap, hop]
  cases o with
  | same =>
    have hne : op ≠ .writeTextAtWithWrap := hends
    simp [hne]
  | endingY y =>
    have heq : op = .writeTextAtWithWrap := hends
    simp [heq]

/-- The positions of a run are those of its wrapped texts, one for each, in their order. -/
theorem forall₂_endingYs {index : Nat} {out : Output}
    (h : runSteps config index steps = .ok out) :
    List.Forall₂ (fun step y => ∃ result, runUnder config [step] = .ok result ∧
      result.endingYs = [y]) (steps.filter isWrap) out.endingYs := by
  refine runSteps_induction (P := fun steps out => List.Forall₂ (fun step y => ∃ result,
    runUnder config [step] = .ok result ∧ result.endingYs = [y]) (steps.filter isWrap)
      out.endingYs) List.Forall₂.nil ?_ h
  intro step rest first others hfirst hothers
  have hends := endingYs_of_runStep hfirst
  split at hends
  · rename_i hwrap
    obtain ⟨y, hy⟩ := hends
    obtain ⟨texts, htexts⟩ := fragments_of_runStep hfirst
    have halone : runSteps config 0 [step] = .ok (first.append ⟨[], []⟩) :=
      runSteps_cons_eq_ok.mpr ⟨first, _, hfirst, rfl, rfl⟩
    rw [List.filter_cons_of_pos hwrap, Output.append, hy]
    have hfragments : (first.append ⟨[], []⟩).fragments = texts.map .text := by
      simpa [Output.append] using htexts
    have hrun := runUnder_of_runSteps halone hfragments
    exact List.Forall₂.cons ⟨_, hrun, by simp [Output.append, hy]⟩ hothers
  · rename_i hwrap
    rw [List.filter_cons_of_neg hwrap, Output.append, hends]
    exact hothers

/-- Scripts compose: the steps of two scripts with the same settings succeed together exactly when
they succeed apart, and then the labels and the positions stand one behind the other.  There is one
position for each wrapped text, the one that it has alone.  A failure of the first script, be it of
its settings or of one of its steps, is the failure of both, whatever the second one contains. -/
theorem run_append (fields : Fields) (defaults : Config) (a b : List Value) :
    (∀ result, run (withSteps fields (a ++ b)) defaults = .ok result ↔
      ∃ first second, run (withSteps fields a) defaults = .ok first ∧
        run (withSteps fields b) defaults = .ok second ∧ result = first.append second) ∧
    (∀ result, run (withSteps fields a) defaults = .ok result →
      List.Forall₂ (fun step y => ∃ alone, run (withSteps fields [step]) defaults = .ok alone ∧
        alone.endingYs = [y]) (a.filter isWrap) result.endingYs) ∧
    ∀ failure, run (withSteps fields a) defaults = .error failure →
      run (withSteps fields (a ++ b)) defaults = .error failure := by
  simp only [run_withSteps]
  cases readConfig ((fields.get? "config").getD .null) defaults with
  | error e =>
    refine ⟨fun result => ⟨fun h => ?_, ?_⟩, fun result h => ?_, fun failure h => h⟩
    · cases h
    · rintro ⟨first, second, h, -, -⟩
      cases h
    · cases h
  | ok config =>
    refine ⟨fun result => runUnder_append_eq_ok_iff, fun result h => ?_, fun failure h =>
      runUnder_append_of_error h b⟩
    obtain ⟨out, texts, hout, -, rfl⟩ := runUnder_eq_ok_iff.mp h
    exact forall₂_endingYs hout

end ThermalLabel.Script
