import ThermalLabel.Proofs.Json.Integers
import ThermalLabel.Proofs.Label.Positions
import ThermalLabel.Proofs.Script.Execution

/-!
# Answers of scripts

What a run of a script answers can be passed on.  The wording of an error holds no lone half, for
whatever it shows of the script is quoted; the names of unknown settings are the one exception.
The positions that a run answers can be written if the integers of the script can.
-/
namespace ThermalLabel.Script

/-! ### The wording of errors -/

/-- If this is an error of the script, its wording holds no lone half. -/
def Worded {α : Type} (r : Checked α) : Prop :=
  ∀ e, r = .error (.error e) → e.message.Unbroken

namespace Worded

variable {α β : Type} {r : Checked α}

theorem ok (a : α) : Worded (.ok a : Checked α) := by
  intro e h
  cases h

theorem fault (f : Fault) : Worded (.error (.fault f) : Checked α) := by
  intro e h
  cases h

theorem refuse {e : Error} (h : e.message.Unbroken) : Worded (refuse e : Checked α) := by
  intro f hf
  obtain rfl : e = f := Failure.error.inj (Except.error.inj hf)
  exact h

theorem liftFault (r : Except Fault α) : Worded (liftFault r) := by
  cases r with
  | ok a => exact .ok a
  | error f => exact .fault f

theorem bind (h : Worded r) {next : α → Checked β} (hnext : ∀ a, Worded (next a)) :
    Worded (r >>= next) := by
  cases r with
  | error f =>
    rintro e ⟨⟩
    exact h e rfl
  | ok a => exact hnext a

theorem refuseShowing {v : Value} {e : Text → Error}
    (h : ∀ shown, shown.Unbroken → (e shown).message.Unbroken) :
    Worded (refuseShowing v e : Checked α) := by
  cases hv : v.quoted with
  | error f =>
    unfold Script.refuseShowing
    rw [hv]
    exact .fault f
  | ok shown =>
    unfold Script.refuseShowing
    rw [hv]
    exact .refuse (h shown (v.quoted_unbroken hv))

end Worded

theorem choose_worded (e : Enumeration) (v : Value) : Worded (choose e v) := by
  have hshowing : Worded (refuseShowing v (.notMember e) : Checked Value) :=
    .refuseShowing fun shown h => by simp [Error.message, Text.unbroken_append, h]
  unfold choose
  split
  · exact .ok _
  · exact .ok _
  · split
    · exact .ok _
    · exact hshowing
  · exact hshowing

theorem readChoices_worded (fs : List Field) (given : Fields) : Worded (readChoices fs given) := by
  induction fs generalizing given with
  | nil => exact .ok given
  | cons f rest ih =>
    unfold readChoices
    split
    · exact (choose_worded _ _).bind fun _ => ih _
    · exact ih given

theorem checkNames_worded (index : Nat) (op : Operation) (given : Fields) :
    Worded (checkNames index op given) := by
  unfold checkNames
  split
  · exact .refuse (by simp [Error.message, Text.unbroken_append, Text.unbroken_quoted])
  · split
    · exact .refuse (by simp [Error.message, Text.unbroken_append, Text.unbroken_quoted])
    · exact .ok ()

theorem checkTypes_worded (index : Nat) (op : Operation) (given : Fields) (fs : List Field) :
    Worded (checkTypes index op given fs) := by
  induction fs with
  | nil => exact .ok ()
  | cons f rest ih =>
    unfold checkTypes
    split
    · split
      · exact ih
      · exact .refuseShowing fun shown h => by simp [Error.message, Text.unbroken_append, h]
    · exact ih

theorem readStep_worded (index : Nat) (step : Value) : Worded (readStep index step) := by
  unfold readStep
  split
  · rename_i fields
    have hunknown (v : Value) :
        Worded (refuseShowing v (.unknownOperation index) : Checked Operation) :=
      .refuseShowing fun shown h => by simp [Error.message, Text.unbroken_append, h]
    have hoperation : Worded (operationOf index fields) := by
      unfold operationOf
      dsimp only
      split
      · split
        · exact .ok _
        · exact hunknown _
      · exact hunknown _
    refine hoperation.bind fun op => (readChoices_worded _ _).bind fun given => ?_
    exact (checkNames_worded _ _ _).bind fun _ => (checkTypes_worded _ _ _ _).bind fun _ => .ok _
  · exact .refuse (by simp [Error.message, Text.unbroken_append])

theorem runSteps_worded (config : Config) (index : Nat) (steps : List Value) :
    Worded (runSteps config index steps) := by
  induction steps generalizing index with
  | nil => exact .ok _
  | cons step rest ih =>
    have hstep : Worded (runStep config index step) := by
      refine (readStep_worded index step).bind fun call => ?_
      unfold Output.ofEmission
      split
      · exact .ok _
      · exact .ok _
      · exact .fault _
    exact hstep.bind fun _ => (ih (index + 1)).bind fun _ => .ok _

theorem checkConfig_worded (c : Config) : Worded (checkConfig c) := by
  have hpositive (name : String) (v : Value) : Worded (requirePositive name v) := by
    unfold requirePositive
    split
    · exact .ok ()
    · exact .refuseShowing fun shown h => by simp [Error.message, Text.unbroken_append, h]
  refine (hpositive _ _).bind fun _ => (hpositive _ _).bind fun _ => ?_
  split
  · exact .ok c
  · exact .refuseShowing fun shown h => by simp [Error.message, Text.unbroken_append, h]

/-- The names of unknown settings are shown as they are. -/
theorem readConfig_worded {block : Value} (hblock : block.Unbroken) (defaults : Config) :
    Worded (readConfig block defaults) := by
  unfold readConfig
  split
  · exact checkConfig_worded defaults
  · split
    · rename_i fields _
      split
      · exact checkConfig_worded _
      · have hnames : ∀ name ∈ unknownNames fields, name.Unbroken := by
          intro name hname
          rw [unknownNames, List.mem_mergeSort] at hname
          obtain ⟨f, hf, rfl⟩ := List.mem_map.mp (List.mem_filter.mp hname).1
          exact (Value.unbroken_object_iff.mp hblock f hf).1
        refine .refuse ?_
        rw [Error.message]
        exact (Text.unbroken_ofString _).append
          (Text.unbroken_join (Text.unbroken_ofString _) hnames)
    · exact .refuse (by simp [Error.message])

theorem unbroken_of_get? {fields : Fields} (h : Value.Unbroken (.object fields)) {name : Text}
    {v : Value} (hget : Fields.get? fields name = some v) : v.Unbroken :=
  (Value.unbroken_object_iff.mp h _ (Fields.mem_of_get? hget)).2

/-- The error that a script is refused with can be written in octets if the script can. -/
theorem run_worded {script : Value} (hscript : script.Unbroken) (defaults : Config) :
    Worded (run script defaults) := by
  unfold run
  split
  · rename_i fields
    split
    · have hblock : ((Fields.get? fields "config").getD .null).Unbroken := by
        cases hget : Fields.get? fields "config" with
        | none => simp [Value.Unbroken, Value.texts]
        | some block => exact unbroken_of_get? hscript hget
      refine (readConfig_worded hblock defaults).bind fun config => ?_
      exact (runSteps_worded _ _ _).bind fun _ => (Worded.liftFault _).bind fun _ => .ok _
    · exact .refuse (by simp [Error.message])
  · exact .refuse (by simp [Error.message])

/-! ### Positions -/

theorem short_of_get? {fields : Fields} (h : Value.Short (.object fields)) {name : Text}
    {v : Value} (hget : Fields.get? fields name = some v) : v.Short :=
  Value.short_object_iff.mp h _ (Fields.mem_of_get? hget)

theorem short_of_runStep {config : Config} {index : Nat} {step : Value} {out : Output}
    (hstep : step.Short) (h : runStep config index step = .ok out) :
    ∀ y ∈ out.endingYs, y.Short := by
  obtain ⟨call, hcall, hout⟩ := runStep_eq_ok_iff.mp h
  obtain ⟨o, ho, -, hys⟩ := ofEmission_eq_ok hout
  have hends := Operation.ends_of_ok (fits_of_callOf? hcall) ho
  rw [hys]
  cases o with
  | same => nofun
  | endingY y =>
    obtain ⟨fields, op, rfl, -, ha, rfl⟩ := callOf?_eq_some_iff.mp hcall
    obtain rfl : op = .writeTextAtWithWrap := hends
    have hfield : Field.integer .y ∈ Operation.writeTextAtWithWrap.fields := by
      simp [Operation.fields]
    have hshort : (argumentsOf .writeTextAtWithWrap fields .y).Short := by
      rw [show Parameter.y = (Field.integer .y).parameter from rfl, argumentsOf_apply fields hfield]
      cases hget : Fields.get? fields (Field.integer .y).parameter.name with
      | none => simp [Field.integer, Value.Short, Value.integers]
      | some v => exact short_of_get? hstep hget
    exact List.forall_mem_singleton.mpr (emit_wrap_endingY ha.fits hshort ho)

/-- The positions that a run of short steps answers can be written. -/
theorem short_of_runSteps {config : Config} {index : Nat} {steps : List Value} {out : Output}
    (hsteps : ∀ step ∈ steps, step.Short) (h : runSteps config index steps = .ok out) :
    ∀ y ∈ out.endingYs, y.Short := by
  refine runSteps_induction
    (P := fun steps out => (∀ step ∈ steps, step.Short) → ∀ y ∈ out.endingYs, y.Short)
    (fun _ => nofun) ?_ h hsteps
  intro step rest first others hfirst ih hall
  rw [List.forall_mem_cons] at hall
  exact List.forall_mem_append.mpr ⟨short_of_runStep hall.1 hfirst, ih hall.2⟩

/-- A script that gives a result has a list of steps, and if its integers can be written then so
can the positions of the result. -/
theorem run_of_ok {script : Value} (hscript : script.Short) {defaults : Config} {result : Result}
    (h : run script defaults = .ok result) :
    ∃ steps, steps? script = some steps ∧ ∀ y ∈ result.endingYs, y.Short := by
  cases hsteps : steps? script with
  | none =>
    obtain ⟨e, he⟩ := run_of_steps?_eq_none hsteps defaults
    rw [h] at he
    cases he
  | some steps =>
    refine ⟨steps, rfl, ?_⟩
    rw [run_of_steps?_eq_some hsteps] at h
    obtain ⟨config, -, h⟩ := exists_of_bind_eq_ok h
    obtain ⟨out, texts, hout, -, rfl⟩ := runUnder_eq_ok_iff.mp h
    refine short_of_runSteps ?_ hout
    cases script with
    | object fields =>
      rw [steps?] at hsteps
      split at hsteps
      · rename_i found hget
        cases hsteps
        exact Value.short_list_iff.mp (short_of_get? hscript hget)
      · cases hsteps
    | _ => cases hsteps

end ThermalLabel.Script
