import ThermalLabel.Proofs.Script.Reading
import ThermalLabel.Script.Run

/-!
# Runs of steps

What a step adds depends on the settings and the step alone: neither its place in the script nor
anything that was emitted before matters to it.  A run that succeeds adds what its steps add, one
after the other, all of it text, so that rendering it cannot fail.
-/
namespace ThermalLabel

/-- Each text stands with the separator behind it. -/
theorem renderFragments_texts (separator : Text) (texts : List Text) :
    renderFragments separator (texts.map .text) = .ok (texts.flatMap (· ++ separator)) := by
  induction texts with
  | nil => rfl
  | cons s rest ih =>
    simp [renderFragments, ih, Value.toText, bind, Except.bind, pure, Except.pure]

namespace Script

theorem Output.append_assoc (a b c : Output) : (a.append b).append c = a.append (b.append c) := by
  simp [append]

variable {config : Config} {index : Nat} {step : Value} {out : Output}

theorem runStep_of_callOf? (config : Config) (index : Nat) {call : Call}
    (h : callOf? step = some call) :
    runStep config index step =
      Output.ofEmission (call.operation.emit config call.arguments) := by
  rw [runStep, readStep_of_callOf? index h]
  rfl

theorem runStep_eq_ok_iff :
    runStep config index step = .ok out ↔ ∃ call, callOf? step = some call ∧
      Output.ofEmission (call.operation.emit config call.arguments) = .ok out := by
  cases h : callOf? step with
  | some call =>
    rw [runStep_of_callOf? config index h]
    simp
  | none =>
    obtain ⟨failure, hfailure⟩ := (readStep_of_not_admitted index h).isError
    rw [runStep, hfailure]
    simp [bind, Except.bind]

/-- Whether a step succeeds, and what it adds, does not depend on its place. -/
theorem runStep_ok_at (h : runStep config index step = .ok out) (other : Nat) :
    runStep config other step = .ok out :=
  runStep_eq_ok_iff.mpr (runStep_eq_ok_iff.mp h)

theorem ofEmission_of_ok {e : Emission} {o : Outcome} (h : e.outcome = .ok o) :
    ∃ out, Output.ofEmission e = .ok out ∧ out.fragments = e.fragments := by
  unfold Output.ofEmission
  rw [h]
  cases o with
  | same => exact ⟨_, rfl, rfl⟩
  | endingY y => exact ⟨_, rfl, rfl⟩

theorem ofEmission_eq_ok {e : Emission} (h : Output.ofEmission e = .ok out) :
    ∃ o, e.outcome = .ok o ∧ out.fragments = e.fragments ∧
      out.endingYs = match o with
        | .same => []
        | .endingY y => [y] := by
  unfold Output.ofEmission at h
  split at h
  · rename_i ho
    cases h
    exact ⟨.same, ho, rfl, rfl⟩
  · rename_i y ho
    cases h
    exact ⟨.endingY y, ho, rfl, rfl⟩
  · cases h

theorem fragments_of_runStep (h : runStep config index step = .ok out) :
    ∃ texts : List Text, out.fragments = texts.map .text := by
  obtain ⟨call, hcall, hout⟩ := runStep_eq_ok_iff.mp h
  obtain ⟨o, ho, hfragments, -⟩ := ofEmission_eq_ok hout
  rw [hfragments]
  exact fragments_of_fits (fits_of_callOf? hcall) ho

theorem runSteps_cons_eq_ok {rest : List Value} :
    runSteps config index (step :: rest) = .ok out ↔
      ∃ first others, runStep config index step = .ok first ∧
        runSteps config (index + 1) rest = .ok others ∧ out = first.append others := by
  rw [runSteps]
  cases runStep config index step with
  | error e => simp [bind, Except.bind]
  | ok first =>
    cases runSteps config (index + 1) rest with
    | error e => simp [bind, Except.bind]
    | ok others => simp [bind, Except.bind, pure, Except.pure, eq_comm]

/-- What holds of every successful step on its own, and of nothing at all, holds of every run if
it holds of two runs in a row. -/
theorem runSteps_induction {P : List Value → Output → Prop} (hnil : P [] ⟨[], []⟩)
    (hcons : ∀ step rest first others, runStep config 0 step = .ok first → P rest others →
      P (step :: rest) (first.append others))
    {steps : List Value} (h : runSteps config index steps = .ok out) : P steps out := by
  induction steps generalizing index out with
  | nil =>
    cases h
    exact hnil
  | cons step rest ih =>
    obtain ⟨first, others, hfirst, hothers, rfl⟩ := runSteps_cons_eq_ok.mp h
    exact hcons step rest first others (runStep_ok_at hfirst 0) (ih hothers)

theorem fragments_of_runSteps {steps : List Value} (h : runSteps config index steps = .ok out) :
    ∃ texts : List Text, out.fragments = texts.map .text := by
  refine runSteps_induction (P := fun _ out => ∃ texts : List Text, out.fragments = texts.map .text)
    ⟨[], rfl⟩ ?_ h
  rintro step rest first others hfirst ⟨texts, hothers⟩
  obtain ⟨texts', hfirst'⟩ := fragments_of_runStep hfirst
  exact ⟨texts' ++ texts, by simp [Output.append, hfirst', hothers]⟩

theorem runSteps_ok_at {steps : List Value} (h : runSteps config index steps = .ok out)
    (other : Nat) : runSteps config other steps = .ok out := by
  induction steps generalizing index other out with
  | nil => exact h
  | cons step rest ih =>
    obtain ⟨first, others, hfirst, hothers, rfl⟩ := runSteps_cons_eq_ok.mp h
    exact runSteps_cons_eq_ok.mpr ⟨first, others, runStep_ok_at hfirst other,
      ih hothers (other + 1), rfl⟩

theorem runSteps_append (config : Config) (index : Nat) (a b : List Value) :
    runSteps config index (a ++ b) = do
      let first ← runSteps config index a
      let others ← runSteps config (index + a.length) b
      return first.append others := by
  induction a generalizing index with
  | nil =>
    simp only [List.nil_append, runSteps, bind, Except.bind, pure, Except.pure, List.length_nil,
      Nat.add_zero]
    cases runSteps config index b <;> rfl
  | cons step rest ih =>
    simp only [List.cons_append, runSteps, ih, bind, Except.bind, pure, Except.pure,
      List.length_cons]
    rw [Nat.add_right_comm, Nat.add_assoc]
    cases runStep config index step with
    | error e => rfl
    | ok first =>
      cases runSteps config (index + 1) rest with
      | error e => rfl
      | ok others =>
        cases runSteps config (index + (rest.length + 1)) b with
        | error e => rfl
        | ok last => simp [Output.append_assoc]

theorem runSteps_append_eq_ok_iff {a b : List Value} :
    runSteps config index (a ++ b) = .ok out ↔ ∃ first others, runSteps config index a = .ok first ∧
      runSteps config (index + a.length) b = .ok others ∧ out = first.append others := by
  rw [runSteps_append]
  cases runSteps config index a with
  | error e => simp [bind, Except.bind]
  | ok first =>
    cases runSteps config (index + a.length) b with
    | error e => simp [bind, Except.bind]
    | ok others => simp [bind, Except.bind, pure, Except.pure, eq_comm]

/-- The document of a run that succeeds. -/
theorem runUnder_of_runSteps {steps : List Value} {texts : List Text}
    (h : runSteps config 0 steps = .ok out) (htexts : out.fragments = texts.map .text) :
    runUnder config steps = .ok ⟨texts.flatMap (· ++ config.separator), out.endingYs⟩ := by
  rw [runUnder, h]
  simp [htexts, renderFragments_texts, liftFault, bind, Except.bind, pure, Except.pure]

/-- Rendering does not fail, so a run fails only by one of its steps. -/
theorem runUnder_eq_ok_iff {steps : List Value} {result : Result} :
    runUnder config steps = .ok result ↔ ∃ out, ∃ texts : List Text,
      runSteps config 0 steps = .ok out ∧ out.fragments = texts.map .text ∧
      result = ⟨texts.flatMap (· ++ Text.ofString config.separator), out.endingYs⟩ := by
  cases h : runSteps config 0 steps with
  | error e =>
    rw [runUnder, h]
    simp [bind, Except.bind]
  | ok out =>
    obtain ⟨texts, htexts⟩ := fragments_of_runSteps h
    rw [runUnder_of_runSteps h htexts]
    constructor
    · intro hr
      exact ⟨out, texts, rfl, htexts, (Except.ok.inj hr).symm⟩
    · rintro ⟨out', texts', hout, htexts', rfl⟩
      cases hout
      rw [htexts, List.map_inj_right (by simp)] at htexts'
      rw [htexts']

theorem runUnder_eq_error_iff {steps : List Value} {failure : Failure} :
    runUnder config steps = .error failure ↔ runSteps config 0 steps = .error failure := by
  cases h : runSteps config 0 steps with
  | error e =>
    rw [runUnder, h]
    simp [bind, Except.bind]
  | ok out =>
    obtain ⟨texts, htexts⟩ := fragments_of_runSteps h
    rw [runUnder_of_runSteps h htexts]
    simp

/-- The settings that a script asks for, null if it has none. -/
def settingsBlock : Value → Value
  | .object fields => (Fields.get? fields "config").getD .null
  | _ => .null

/-- The steps of a script, if it has a list of them. -/
def steps? : Value → Option (List Value)
  | .object fields => match Fields.get? fields "operations" with
    | some (.list steps) => some steps
    | _ => none
  | _ => none

/-- Without a list of steps a script is refused, whatever else it holds. -/
theorem run_of_steps?_eq_none {script : Value} (h : steps? script = none) (defaults : Config) :
    ∃ e, run script defaults = .error (.error e) := by
  unfold run
  split
  · split
    · rename_i hlist
      simp [steps?, hlist] at h
    · exact ⟨_, rfl⟩
  · exact ⟨_, rfl⟩

theorem run_of_steps?_eq_some {script : Value} {steps : List Value} (h : steps? script = some steps)
    (defaults : Config) :
    run script defaults = readConfig (settingsBlock script) defaults >>= fun config =>
      runUnder config steps := by
  cases script with
  | object fields =>
    rw [steps?] at h
    split at h
    · rename_i hlist
      cases h
      simp only [run, hlist]
      rfl
    · cases h
  | _ => simp [steps?] at h

end Script

end ThermalLabel
