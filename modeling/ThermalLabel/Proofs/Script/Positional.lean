import Mathlib.Data.List.Forall2
import ThermalLabel.Proofs.Label.Calls
import ThermalLabel.Proofs.Script.Execution

/-!
# Steps as calls by position

A step names the fields that it gives, a call by position does not.  A step that gives the first
fields of an operation stands for the call with the same arguments, choices read, and steps run
like the calls that they stand for.
-/
namespace ThermalLabel

/-- An entry for each field is found under the name of the field. -/
theorem Fields.get?_map_name (bound : List (Parameter × Value)) (p : Parameter) :
    get? (bound.map fun entry => (Text.ofString entry.1.name, entry.2)) p.name =
      bound.lookup p := by
  induction bound with
  | nil => rfl
  | cons entry rest ih =>
    rw [List.map_cons, get?_cons, List.lookup_cons, ih]
    by_cases h : p = entry.1
    · simp [h]
    · have hname : Text.ofString p.name ≠ Text.ofString entry.1.name := by
        rwa [Ne, Text.ofString_inj, Parameter.name_inj]
      rw [if_neg hname, beq_false_of_ne h]

namespace Script

/-- The entries of a step that gives the first fields of an operation. -/
def stepFields (op : Operation) (given : List Value) : Fields :=
  ("op", .text op.name) ::
    (byPosition op.fields given).map fun entry => (Text.ofString entry.1.name, entry.2)

/-- The step that gives the first fields of an operation, each under its name. -/
def stepOf (op : Operation) (given : List Value) : Value :=
  .object (stepFields op given)

example : stepOf .setFont [.integer 40] =
    .object [("op", .text "set_font"), ("height", .integer 40)] := rfl

/-- Every given value may be given for the field at its place. -/
def admitsAll (op : Operation) (given : List Value) : Bool :=
  (op.fields.zip given).all fun entry => admits entry.1.type entry.2

/-- The given values with choices read. -/
def settleAll (op : Operation) (given : List Value) : List Value :=
  List.zipWith (fun f v => settle f.type v) op.fields given

variable {op : Operation} {given : List Value}

theorem get?_stepFields (op : Operation) (given : List Value) (p : Parameter) :
    (stepFields op given).get? p.name = (byPosition op.fields given).lookup p := by
  rw [stepFields, Fields.get?_cons, if_neg p.name_ne_op, Fields.get?_map_name]

theorem mem_byPosition {fs : List Field} {entry : Parameter × Value}
    (h : entry ∈ byPosition fs given) : ∃ f ∈ fs, entry.1 = f.parameter := by
  induction fs generalizing given with
  | nil => simp [byPosition] at h
  | cons f rest ih =>
    cases given with
    | nil => simp [byPosition] at h
    | cons v given =>
      rw [byPosition] at h
      rcases List.mem_cons.mp h with rfl | h
      · exact ⟨f, List.mem_cons_self, rfl⟩
      · obtain ⟨g, hg, heq⟩ := ih h
        exact ⟨g, List.mem_cons_of_mem _ hg, heq⟩

theorem admitted_stepFields (hcount : op.takes given.length = true)
    (htyped : admitsAll op given = true) :
    Admitted op (stepFields op given) := by
  obtain ⟨-, hrest⟩ := Operation.takes_iff.mp hcount
  constructor
  · intro f hf hrequired
    rw [get?_stepFields]
    exact lookup_byPosition_isSome hrest hf hrequired
  · intro entry hentry
    rcases List.mem_cons.mp hentry with rfl | hentry
    · exact Or.inl rfl
    · obtain ⟨bound, hbound, rfl⟩ := List.mem_map.mp hentry
      obtain ⟨f, hf, heq⟩ := mem_byPosition hbound
      exact Or.inr ⟨f, hf, by rw [heq]⟩
  · intro f hf v hv
    rw [get?_stepFields] at hv
    have hzip := mem_zip_of_lookup_byPosition op.parameters_nodup hf hv
    exact List.all_eq_true.mp htyped (f, v) hzip

/-- Reading choices first and binding by position afterwards gives what binding by name and reading
choices gives. -/
theorem lookup_settled {fs : List Field} (hrest : ∀ f ∈ fs.drop given.length, f.required = false)
    (p : Parameter) :
    (byPosition fs (List.zipWith (fun f v => settle f.type v) fs given) ++
        byName [] (fs.drop (List.zipWith (fun f v => settle f.type v) fs given).length)).lookup p =
      (fs.find? (·.parameter == p)).bind fun f =>
        (((byPosition fs given).lookup p).map (settle f.type)).or f.default? := by
  induction fs generalizing given with
  | nil => rfl
  | cons f rest ih =>
    cases given with
    | nil =>
      simp only [List.zipWith_nil_right, byPosition, List.nil_append, List.length_nil,
        List.drop_zero, List.lookup_nil, Option.map_none, Option.none_or]
      exact lookup_byName_nil hrest
    | cons v given =>
      rw [List.zipWith_cons_cons, List.length_cons, List.drop_succ_cons, lookup_byPosition_cons]
      rw [byPosition, List.cons_append, List.lookup_cons]
      by_cases hp : f.parameter = p
      · simp [hp]
      · rw [beq_false_of_ne (Ne.symm hp), List.find?_cons_of_neg (by simpa using hp), if_neg hp]
        exact ih hrest

/-- The step is admitted, and stands for the call. -/
def Means (step : Value) (call : Call) : Prop :=
  callOf? step = some call

/-- A step that gives the first fields of an operation stands for the call by position. -/
theorem stepOf_means (hcount : op.takes given.length = true) (htyped : admitsAll op given = true) :
    Means (stepOf op given) (.positional op (settleAll op given)) := by
  obtain ⟨-, hrest⟩ := Operation.takes_iff.mp hcount
  rw [Means, callOf?_eq_some_iff]
  refine ⟨_, op, rfl, ?_, admitted_stepFields hcount htyped, ?_⟩
  · exact Operation.ofName?_eq_some_iff.mpr rfl
  · rw [Call.positional, Call.mk.injEq]
    refine ⟨rfl, funext fun p => ?_⟩
    rw [Arguments.ofList, settleAll, lookup_settled hrest, argumentsOf]
    cases hfind : op.fields.find? (·.parameter == p) with
    | none => rfl
    | some f =>
      have hp : f.parameter = p := by
        have hfound := List.find?_some hfind
        simpa using hfound
      rw [← hp, Option.bind_some, Option.bind_some, get?_stepFields]

/-- Steps that stand for calls run like them: the run adds what the calls add to any label, and the
fault of the first call that fails ends both. -/
theorem runSteps_of_calls (config : Config) {steps : List Value} {calls : List Call}
    (h : List.Forall₂ Means steps calls) (index : Nat)
    (fragments : List Value) :
    ∃ r : Except Fault Output, runSteps config index steps = liftFault r ∧
      Document.performAll ⟨config, fragments⟩ calls =
        r.map fun out => ⟨config, fragments ++ out.fragments⟩ := by
  induction h generalizing index fragments with
  | nil => exact ⟨.ok ⟨[], []⟩, rfl, by simp [Document.performAll, Except.map]⟩
  | @cons step call rest others hcall _ ih =>
    obtain ⟨r, hrun, hperform⟩ :=
      ih (index + 1) (fragments ++ (call.operation.emit config call.arguments).fragments)
    rw [runSteps, runStep_of_callOf? config index hcall, hrun]
    cases ho : (call.operation.emit config call.arguments).outcome with
    | error f =>
      refine ⟨.error f, ?_, Document.performAll_cons_of_error ho⟩
      simp [Output.ofEmission, ho, liftFault, bind, Except.bind]
    | ok o =>
      obtain ⟨first, hfirst, hfragments⟩ := ofEmission_of_ok ho
      have hcons := (Document.performAll_cons_of_ok (d := ⟨config, fragments⟩) ho).trans hperform
      rw [hfirst, hcons]
      cases r with
      | error f => exact ⟨.error f, rfl, rfl⟩
      | ok out =>
        refine ⟨.ok (first.append out), rfl, ?_⟩
        simp [Except.map, Output.append, hfragments]

/-- A run ends like the label that its calls build: with the same text, or with the same fault. -/
theorem runUnder_of_calls (config : Config) {steps : List Value} {calls : List Call}
    (h : List.Forall₂ Means steps calls) :
    ∃ outcome : Except Fault Result, runUnder config steps = liftFault outcome ∧
      (Document.performAll ⟨config, []⟩ calls >>= Document.render) =
        outcome.map (·.document) ∧
      ((∃ d, Document.performAll ⟨config, []⟩ calls = .ok d) → ∃ result, outcome = .ok result) := by
  obtain ⟨r, hrun, hperform⟩ := runSteps_of_calls config h 0 []
  rw [hperform, runUnder, hrun]
  cases r with
  | error f =>
    refine ⟨.error f, rfl, rfl, ?_⟩
    rintro ⟨d, hd⟩
    cases hd
  | ok out =>
    obtain ⟨texts, htexts⟩ := fragments_of_runSteps hrun
    have hrender : renderFragments config.separator out.fragments =
        .ok (texts.flatMap (· ++ Text.ofString config.separator)) := by
      rw [htexts, renderFragments_texts]
    refine ⟨.ok ⟨texts.flatMap (· ++ Text.ofString config.separator), out.endingYs⟩, ?_, ?_,
      fun _ => ⟨_, rfl⟩⟩
    · simp [liftFault, hrender, bind, Except.bind, pure, Except.pure]
    · simp [Document.render, hrender, Except.map, bind, Except.bind]

end Script

end ThermalLabel
