import Mathlib.Order.Bounds.Defs
import ThermalLabel.Proofs.Label.Plain
import ThermalLabel.Proofs.Script.Composition

/-!
# Which step an error is about

A script that fails although its settings are in order fails at the first of its steps that cannot
be run, and up to that step it succeeds.  The wording of the error begins with the place of the
step, with one exception: a choice that names no member is reported without the step that makes it.
-/
namespace ThermalLabel.Script

/-- The step whose place an error tells. -/
def Error.step? : Error → Option Nat
  | stepNotObject k | unknownOperation k _ | missingArgument k _ _ | unknownArgument k _ _
  | wrongType k _ _ _ _ => some k
  | _ => none

/-- The first choice of a step that names no member. -/
def misnamed? : Value → Option Value
  | .object fields => (operation? fields).bind fun op =>
    firstInadmissible? fields (choices op.fields)
  | _ => none

/-- The text begins with the place of a step, which a space ends. -/
def Tells (k : Nat) (message : Text) : Prop :=
  Text.ofString (stepText k ++ " ") <+: message

theorem Error.tells_of_step? {e : Error} {k : Nat} (h : e.step? = some k) : Tells k e.message := by
  unfold Tells
  cases e with
  | stepNotObject | unknownOperation | missingArgument | unknownArgument | wrongType =>
    cases h
    simp only [message, callText, Text.ofString_append, List.append_assoc,
      List.prefix_append_right_inj]
    simp [Text.ofString, Text.ofChars]
  | _ => cases h

theorem not_tells_notMember (k : Nat) (choice : Enumeration) (shown : Text) :
    ¬ Tells k (Error.notMember choice shown).message := by
  intro h
  simp [Tells, Error.message, stepText, Text.ofString, Text.ofChars] at h

/-! ### The errors of one step -/

section Steps

variable {α β : Type} {index : Nat} {step : Value} {op : Operation} {fields given : Fields}
  {e : Error}

theorem bind_eq_error {r : Checked α} {next : α → Checked β} {failure : Failure}
    (h : r >>= next = .error failure) :
    r = .error failure ∨ ∃ a, r = .ok a ∧ next a = .error failure := by
  cases r with
  | error f =>
    cases h
    exact .inl rfl
  | ok a => exact .inr ⟨a, rfl, h⟩

/-- A refusal that shows a value is an error only if the value can be shown. -/
theorem refuseShowing_eq_error {v : Value} {mk : Text → Error}
    (h : (refuseShowing v mk : Checked α) = .error (.error e)) :
    ∃ shown, v.quoted = .ok shown ∧ e = mk shown := by
  unfold refuseShowing at h
  cases hv : v.quoted with
  | error f =>
    rw [hv] at h
    cases h
  | ok shown =>
    rw [hv] at h
    exact ⟨shown, rfl, (Failure.error.inj (Except.error.inj h)).symm⟩

theorem operationOf_eq_error (h : operationOf index fields = .error (.error e)) :
    e.step? = some index := by
  unfold operationOf at h
  dsimp only at h
  split at h
  · split at h
    · cases h
    · obtain ⟨shown, -, rfl⟩ := refuseShowing_eq_error h
      rfl
  · obtain ⟨shown, -, rfl⟩ := refuseShowing_eq_error h
    rfl

theorem checkNames_eq_error (h : checkNames index op given = .error (.error e)) :
    e.step? = some index := by
  unfold checkNames at h
  split at h
  · cases h
    rfl
  · split at h
    · cases h
      rfl
    · cases h

theorem checkTypes_eq_error {fs : List Field}
    (h : checkTypes index op given fs = .error (.error e)) : e.step? = some index := by
  induction fs with
  | nil => cases h
  | cons f rest ih =>
    rw [checkTypes] at h
    split at h
    · split at h
      · exact ih h
      · obtain ⟨shown, -, rfl⟩ := refuseShowing_eq_error h
        rfl
    · exact ih h

theorem choose_eq_error {choice : Enumeration} {v : Value}
    (h : choose choice v = .error (.error e)) : ∃ shown, e = .notMember choice shown := by
  have hrefused (h : (refuseShowing v (.notMember choice) : Checked Value) = .error (.error e)) :
      ∃ shown, e = .notMember choice shown := by
    obtain ⟨shown, -, rfl⟩ := refuseShowing_eq_error h
    exact ⟨shown, rfl⟩
  unfold choose at h
  split at h
  · cases h
  · cases h
  · split at h
    · cases h
    · exact hrefused h
  · exact hrefused h

theorem readChoices_eq_error {fs : List Field} (h : readChoices fs given = .error (.error e)) :
    ∃ choice shown, e = .notMember choice shown := by
  induction fs generalizing given with
  | nil => cases h
  | cons f rest ih =>
    rw [readChoices] at h
    split at h
    · rename_i choice v _ _
      rcases bind_eq_error h with hchoose | ⟨chosen, -, hrest⟩
      · exact ⟨choice, choose_eq_error hchoose⟩
      · exact ih hrest
    · exact ih h

/-- The fields of a step whose choices are in order are refused with the place of the step, the
others without it. -/
theorem bindStep_eq_error (h : bindStep index op (givenFields fields) = .error (.error e)) :
    match firstInadmissible? fields (choices op.fields) with
    | none => e.step? = some index
    | some _ => ∃ choice shown, e = .notMember choice shown := by
  have hchoices := readChoices_spec op.parameters_nodup (givenFields fields)
  rw [firstInadmissible?_givenFields] at hchoices
  rcases bind_eq_error h with hread | ⟨read, hread, h⟩
  · cases hfirst : firstInadmissible? fields (choices op.fields) with
    | some v => exact readChoices_eq_error hread
    | none =>
      rw [hfirst] at hchoices
      obtain ⟨read, hok, -⟩ := hchoices
      rw [hread] at hok
      cases hok
  · cases hfirst : firstInadmissible? fields (choices op.fields) with
    | some v =>
      rw [hfirst] at hchoices
      obtain ⟨mk, hrefused⟩ := hchoices
      exact absurd (hrefused.symm.trans hread) (refuseShowing_ne_ok _ _ _)
    | none =>
      rcases bind_eq_error h with hnames | ⟨-, -, h⟩
      · exact checkNames_eq_error hnames
      · rcases bind_eq_error h with htypes | ⟨-, -, h⟩
        · exact checkTypes_eq_error htypes
        · cases h

theorem readStep_eq_error (h : readStep index step = .error (.error e)) :
    match misnamed? step with
    | none => e.step? = some index
    | some _ => ∃ choice shown, e = .notMember choice shown := by
  cases step with
  | object fields =>
    have hoperation := operationOf_spec index fields
    rw [misnamed?]
    cases hop : operation? fields with
    | none =>
      rw [hop] at hoperation
      obtain ⟨failure, hfailure⟩ := Refused.isError hoperation
      rw [readStep, hfailure] at h
      cases h
      exact operationOf_eq_error hfailure
    | some op =>
      rw [hop] at hoperation
      rw [readStep, hoperation] at h
      exact bindStep_eq_error h
  | _ =>
    cases h
    rfl

theorem runStep_eq_error {config : Config} (h : runStep config index step = .error (.error e)) :
    match misnamed? step with
    | none => e.step? = some index
    | some _ => ∃ choice shown, e = .notMember choice shown := by
  rcases bind_eq_error h with hread | ⟨call, -, hemit⟩
  · exact readStep_eq_error hread
  · -- What a call cannot write is a fault, and no error of the script.
    unfold Output.ofEmission at hemit
    split at hemit <;> cases hemit

end Steps

/-! ### The step that fails -/

variable {config : Config} {steps : List Value} {failure : Failure}

/-- A run that fails could do what is before one of its steps, and fails at this step. -/
theorem exists_failing_step {index : Nat} (h : runSteps config index steps = .error failure) :
    ∃ before step after out, steps = before ++ step :: after ∧
      runSteps config index before = .ok out ∧
      runStep config (index + before.length) step = .error failure := by
  induction steps generalizing index with
  | nil => cases h
  | cons step rest ih =>
    rcases bind_eq_error h with hstep | ⟨first, hfirst, h⟩
    · exact ⟨[], step, rest, _, rfl, rfl, hstep⟩
    · rcases bind_eq_error h with hrest | ⟨others, -, h⟩
      · obtain ⟨before, failing, after, out, rfl, hbefore, hfailing⟩ := ih hrest
        refine ⟨step :: before, failing, after, first.append out, rfl,
          runSteps_cons_eq_ok.mpr ⟨first, out, hfirst, hbefore, rfl⟩, ?_⟩
        rwa [List.length_cons, Nat.add_comm before.length, ← Nat.add_assoc]
      · cases h

/-- The step at which a run fails is the first one up to which the run fails. -/
theorem isLeast_failing_step {before after : List Value} {step : Value} {out : Output}
    (hbefore : runSteps config 0 before = .ok out)
    (hstep : runStep config before.length step = .error failure) :
    IsLeast {k | ∃ f, runUnder config ((before ++ step :: after).take (k + 1)) = .error f}
      before.length := by
  constructor
  · refine ⟨failure, runUnder_eq_error_iff.mpr ?_⟩
    have htake : (before ++ step :: after).take (before.length + 1) = before ++ [step] :=
      List.take_length_add_append 1
    rw [htake, runSteps_append, hbefore, runSteps, Nat.zero_add, hstep]
    rfl
  · rintro k ⟨f, hfailed⟩
    by_contra hlt
    have htake : (before ++ step :: after).take (k + 1) = before.take (k + 1) :=
      List.take_append_of_le_length (by omega)
    rw [htake, runUnder_eq_error_iff] at hfailed
    rw [← List.take_append_drop (k + 1) before, runSteps_append, hfailed] at hbefore
    cases hbefore

/-- Errors of steps are localised.  If a script whose settings are in order fails, there is a first
of its steps up to which it fails, counted from zero.  The wording of the error begins with the
place of this step, unless it is about a choice: a choice that names no member is read before
anything else of the step, and its error does not tell the step. -/
theorem run_localises (fields : Fields) (defaults : Config) (steps : List Value) {config : Config}
    (hconfig : readConfig ((fields.get? "config").getD .null) defaults = .ok config)
    {failure : Failure} (h : run (withSteps fields steps) defaults = .error failure) :
    ∃ k step, steps[k]? = some step ∧
      IsLeast {k | ∃ f, run (withSteps fields (steps.take (k + 1))) defaults = .error f} k ∧
      ∀ e, failure = .error e → (Tells k e.message ↔ misnamed? step = none) ∧
        (misnamed? step ≠ none → ∃ choice shown, e = .notMember choice shown) := by
  have hrun (steps : List Value) :
      run (withSteps fields steps) defaults = runUnder config steps := by
    rw [run_withSteps, hconfig]
    rfl
  simp only [hrun] at h ⊢
  obtain ⟨before, step, after, out, rfl, hbefore, hstep⟩ :=
    exists_failing_step (runUnder_eq_error_iff.mp h)
  rw [Nat.zero_add] at hstep
  refine ⟨before.length, step, by simp, isLeast_failing_step hbefore hstep, ?_⟩
  rintro e rfl
  have herror := runStep_eq_error hstep
  cases hmisnamed : misnamed? step with
  | none =>
    rw [hmisnamed] at herror
    exact ⟨iff_of_true (Error.tells_of_step? herror) rfl, fun hne => absurd rfl hne⟩
  | some v =>
    rw [hmisnamed] at herror
    obtain ⟨choice, shown, rfl⟩ := herror
    exact ⟨iff_of_false (not_tells_notMember _ _ _) nofun, fun _ => ⟨choice, shown, rfl⟩⟩

/-- The second step lacks a field, and it is reported although the third one is no step at all. -/
theorem run_localises_missing :
    let steps : List Value := [.object [("op", .text "start")],
      .object [("op", .text "set_position"), ("x", .integer 3)], .text "end"]
    ∃ e, run (withSteps [] steps) {} = .error (.error e) ∧ Tells 1 e.message ∧
      IsLeast {k | ∃ f, run (withSteps [] (steps.take (k + 1))) {} = .error f} 1 := by
  intro steps
  have hrun : run (withSteps [] steps) {} =
      .error (.error (.missingArgument 1 .setPosition .y)) := rfl
  have hconfig : readConfig ((Fields.get? [] "config").getD .null) {} = .ok {} := rfl
  obtain ⟨k, step, hstep, hleast, herror⟩ := run_localises [] {} steps hconfig hrun
  have hfails : ∃ f, run (withSteps [] (steps.take 2)) {} = .error f := ⟨_, rfl⟩
  have hk : k = 1 := by
    have hle : k ≤ 1 := hleast.2 hfails
    have hne : k ≠ 0 := by
      rintro rfl
      obtain ⟨f, hf⟩ := hleast.1
      cases hf
    omega
  subst hk
  cases hstep
  exact ⟨_, hrun, (herror _ rfl).1.mpr rfl, hleast⟩

/-- A colour that there is not is reported without the step that asks for it. -/
theorem run_untold :
    let steps : List Value := [.object [("op", .text "start")],
      .object [("op", .text "draw_box"), ("width", .integer 1), ("height", .integer 1),
        ("line_thickness", .integer 1), ("color", .text "purple")]]
    ∃ e, run (withSteps [] steps) {} = .error (.error e) ∧
      IsLeast {k | ∃ f, run (withSteps [] (steps.take (k + 1))) {} = .error f} 1 ∧
      e.message = "valor inválido para Color: 'purple'" ∧
      ¬ Text.ofString (stepText 1) <+: e.message := by
  intro steps
  refine ⟨.notMember .color "'purple'", rfl, ⟨⟨_, rfl⟩, ?_⟩, by decide +kernel, by decide +kernel⟩
  rintro (_ | k) ⟨f, hf⟩
  · cases hf
  · omega

end ThermalLabel.Script
