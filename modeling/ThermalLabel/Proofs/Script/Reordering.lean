import Mathlib.Data.List.Forall2
import ThermalLabel.Proofs.Script.Execution
import ThermalLabel.Proofs.Script.SettingsBlock
import ThermalLabel.Proofs.Text.Order

/-!
# Scripts whose fields come in another order

The order of the fields of a step, and of the settings, does not matter: everything that a step or a
setting means is looked up by its name.  The one exception is which of several unknown arguments a
refusal names.
-/
namespace ThermalLabel

/-- The same fields in some order; no name is given twice. -/
structure Fields.Reorders (fields other : Fields) : Prop where
  perm : fields.Perm other
  nodup : (fields.map (·.1)).Nodup

namespace Fields

variable {fields other : Fields}

theorem get?_of_perm (h : fields.Perm other) (hnodup : (fields.map (·.1)).Nodup) (name : Text) :
    other.get? name = fields.get? name := by
  induction h with
  | nil => rfl
  | cons entry _ ih => rw [get?_cons, get?_cons, ih (List.nodup_cons.mp hnodup).2]
  | swap a b rest =>
    have hne : b.1 ≠ a.1 := by
      intro heq
      simp [heq] at hnodup
    simp only [get?_cons]
    by_cases ha : name = a.1
    · simp [ha, hne.symm]
    · simp [ha]
  | trans hfirst _ ih ih' => rw [ih' (((hfirst.map _).nodup_iff).mp hnodup), ih hnodup]

namespace Reorders

theorem get? (h : fields.Reorders other) (name : Text) : other.get? name = fields.get? name :=
  get?_of_perm h.perm h.nodup name

theorem map (h : fields.Reorders other) {change : Text × Value → Text × Value}
    (hchange : ∀ entry, (change entry).1 = entry.1) :
    Reorders (fields.map change) (other.map change) := by
  refine ⟨h.perm.map change, ?_⟩
  have hnames : (fields.map change).map (·.1) = fields.map (·.1) := by
    rw [List.map_map]
    exact List.map_congr_left fun entry _ => hchange entry
  rw [hnames]
  exact h.nodup

theorem filter (h : fields.Reorders other) (keep : Text × Value → Bool) :
    Reorders (fields.filter keep) (other.filter keep) :=
  ⟨h.perm.filter keep, h.nodup.sublist (List.filter_sublist.map _)⟩

end Reorders

end Fields

namespace Script

/-! ### Choices, names and types -/

theorem readChoices_of_reorders {given other : Fields} (h : given.Reorders other)
    (fs : List Field) :
    (∃ failure, readChoices fs given = .error failure ∧ readChoices fs other = .error failure) ∨
      ∃ read read', readChoices fs given = .ok read ∧ readChoices fs other = .ok read' ∧
        read.Reorders read' := by
  induction fs generalizing given other with
  | nil => exact Or.inr ⟨given, other, rfl, rfl, h⟩
  | cons f rest ih =>
    rw [readChoices, readChoices, h.get?]
    split
    · rename_i e v _ _
      cases hchosen : choose e v with
      | error failure => exact Or.inl ⟨failure, rfl, rfl⟩
      | ok chosen =>
        refine ih (h.map fun entry => ?_)
        split <;> rfl
    · exact ih h

theorem names_of_readChoices {fs : List Field} (hnodup : (fs.map (·.parameter)).Nodup)
    {given read : Fields} (h : readChoices fs given = .ok read) :
    read.map (·.1) = given.map (·.1) := by
  have hspec := readChoices_spec hnodup given
  rw [h] at hspec
  cases hshown : firstInadmissible? given (choices fs) with
  | some v =>
    rw [hshown] at hspec
    obtain ⟨e, he⟩ := hspec
    exact absurd he.symm (refuseShowing_ne_ok _ _ _)
  | none =>
    rw [hshown] at hspec
    obtain ⟨read', hread, hchoices⟩ := hspec
    cases hread
    exact hchoices.names

/-- No field of the operation has the name. -/
def isUnknown (op : Operation) (name : Text) : Bool :=
  !op.fields.any fun f => f.parameter.isNamed name

/-- The names of arguments that a step gives and its operation does not know. -/
def unknownArguments : Value → List Text
  | .object fields => match operation? fields with
    | some op => ((givenFields fields).map (·.1)).filter (isUnknown op)
    | none => []
  | _ => []

/-- Each of two readings is refused for one of several unknown names, not always the same one. -/
structure RefuseUnknown (index : Nat) (unknown : List Text) {α : Type} (r r' : Checked α) :
    Prop where
  several : 2 ≤ unknown.length
  refused : ∃ op, ∃ name ∈ unknown, ∃ name' ∈ unknown,
    r = refuse (.unknownArgument index op name) ∧ r' = refuse (.unknownArgument index op name')

/-- Two readings end alike, but for the choice among several unknown names. -/
def Alike (index : Nat) (unknown : List Text) {α : Type} (r r' : Checked α) : Prop :=
  r' = r ∨ RefuseUnknown index unknown r r'

section Bind

variable {α β : Type} {index : Nat} {unknown : List Text} {r r' : Checked α}

theorem RefuseUnknown.bind (h : RefuseUnknown index unknown r r') (next next' : α → Checked β) :
    RefuseUnknown index unknown (r >>= next) (r' >>= next') := by
  obtain ⟨htwo, op, name, hname, name', hname', rfl, rfl⟩ := h
  exact ⟨htwo, op, name, hname, name', hname', rfl, rfl⟩

theorem Alike.bind (h : Alike index unknown r r') (next : α → Checked β) :
    Alike index unknown (r >>= next) (r' >>= next) :=
  h.imp (fun heq => by rw [heq]) fun hrefuse => hrefuse.bind next next

end Bind

/-- Of the arguments only the names matter, and of the unknown ones only the first. -/
theorem checkNames_eq (index : Nat) (op : Operation) (read : Fields) :
    checkNames index op read = match op.fields.find? fun f => (f.valueFrom read).isNone with
      | some f => refuse (.missingArgument index op f.parameter)
      | none => match ((read.map (·.1)).filter (isUnknown op)).head? with
        | some name => refuse (.unknownArgument index op name)
        | none => .ok () := by
  have hfind : read.find? (isUnknown op ∘ (·.1)) =
      read.find? fun entry => !op.fields.any fun f => f.parameter.isNamed entry.1 := rfl
  rw [checkNames, List.head?_filter, List.find?_map, hfind]
  cases read.find? fun entry => !op.fields.any fun f => f.parameter.isNamed entry.1 <;> rfl

theorem checkNames_of_reorders (index : Nat) (op : Operation) {read read' : Fields}
    (h : read.Reorders read') :
    Alike index ((read.map (·.1)).filter (isUnknown op)) (checkNames index op read)
      (checkNames index op read') := by
  have hvalues : (fun f : Field => (f.valueFrom read').isNone) =
      fun f => (f.valueFrom read).isNone := by
    funext f
    rw [Field.valueFrom, Field.valueFrom, h.get?]
  have hperm := (h.perm.map (·.1)).filter (isUnknown op)
  rw [checkNames_eq, checkNames_eq, hvalues]
  split
  · exact Or.inl rfl
  · generalize (read.map (·.1)).filter (isUnknown op) = unknown at hperm ⊢
    generalize (read'.map (·.1)).filter (isUnknown op) = unknown' at hperm ⊢
    -- One unknown name at most is the same name in any order.
    rcases unknown with _ | ⟨name, _ | ⟨next, rest⟩⟩
    · rw [hperm.nil_eq]
      exact Or.inl rfl
    · rw [List.perm_singleton.mp hperm.symm]
      exact Or.inl rfl
    · cases unknown' with
      | nil => exact absurd hperm.eq_nil (List.cons_ne_nil _ _)
      | cons name' rest' =>
        have hmem : name' ∈ name :: next :: rest := hperm.mem_iff.mpr List.mem_cons_self
        exact Or.inr ⟨by simp, op, name, List.mem_cons_self, name', hmem, rfl, rfl⟩

theorem checkTypes_of_reorders (index : Nat) (op : Operation) {read read' : Fields}
    (h : read.Reorders read') (fs : List Field) :
    checkTypes index op read' fs = checkTypes index op read fs := by
  induction fs with
  | nil => rfl
  | cons f rest ih => rw [checkTypes, checkTypes, h.get?, ih]

theorem byName_of_reorders {read read' : Fields} (h : read.Reorders read') (fs : List Field) :
    byName read' fs = byName read fs := by
  refine List.filterMap_congr fun f _ => ?_
  rw [Field.valueFrom, Field.valueFrom, h.get?]

theorem bindStep_of_reorders (index : Nat) (op : Operation) {given other : Fields}
    (h : given.Reorders other) :
    Alike index ((given.map (·.1)).filter (isUnknown op)) (bindStep index op given)
      (bindStep index op other) := by
  rw [bindStep, bindStep]
  rcases readChoices_of_reorders h op.fields with
    ⟨failure, hgiven, hother⟩ | ⟨read, read', hgiven, hother, hread⟩
  · rw [hgiven, hother]
    exact Or.inl rfl
  · rw [hgiven, hother, ← names_of_readChoices op.parameters_nodup hgiven]
    simp only [bind, Except.bind, checkTypes_of_reorders index op hread,
      byName_of_reorders hread]
    exact (checkNames_of_reorders index op hread).bind _

/-! ### Steps -/

/-- A value, or an object with its fields in another order. -/
inductive Reordered : Value → Value → Prop
  | same (v : Value) : Reordered v v
  | object {fields other : Fields} (h : fields.Reorders other) :
      Reordered (.object fields) (.object other)

theorem readStep_of_reordered (index : Nat) {step step' : Value} (h : Reordered step step') :
    Alike index (unknownArguments step) (readStep index step) (readStep index step') := by
  cases h with
  | same => exact Or.inl rfl
  | @object fields other h =>
    have hoperation : operationOf index other = operationOf index fields := by
      rw [operationOf, operationOf, h.get?]
    have hspec := operationOf_spec index fields
    rw [readStep, readStep, hoperation, unknownArguments]
    cases hop : operation? fields with
    | none =>
      rw [hop] at hspec
      obtain ⟨failure, hfailure⟩ := hspec.isError
      rw [hfailure]
      exact Or.inl rfl
    | some op =>
      rw [hop] at hspec
      rw [hspec]
      exact bindStep_of_reorders index op (h.filter _)

theorem runStep_of_reordered (config : Config) (index : Nat) {step step' : Value}
    (h : Reordered step step') :
    Alike index (unknownArguments step) (runStep config index step)
      (runStep config index step') :=
  (readStep_of_reordered index h).bind _

/-- The step at which a run ends, after all steps before it succeeded. -/
structure FirstFailing (config : Config) (steps : List Value) (index : Nat) (step : Value) :
    Prop where
  here : steps[index]? = some step
  before : ∃ out, runSteps config 0 (steps.take index) = .ok out
  fails : ∀ out, runStep config index step ≠ .ok out

theorem FirstFailing.cons {config : Config} {first step : Value} {rest : List Value} {index : Nat}
    {out : Output} (hfirst : runStep config 0 first = .ok out)
    (h : FirstFailing config rest index step) :
    FirstFailing config (first :: rest) (index + 1) step := by
  obtain ⟨others, hbefore⟩ := h.before
  refine ⟨by simpa using h.here, ⟨out.append others, ?_⟩, fun out hout =>
    h.fails out (runStep_ok_at hout index)⟩
  rw [List.take_succ_cons]
  exact runSteps_cons_eq_ok.mpr ⟨out, others, hfirst, runSteps_ok_at hbefore 1, rfl⟩

/-- Steps that are counted from `start` on run alike, but for the choice among several unknown
arguments of the first step that fails. -/
theorem runSteps_of_reordered (config : Config) (start : Nat) {steps steps' : List Value}
    (h : List.Forall₂ Reordered steps steps') :
    runSteps config start steps' = runSteps config start steps ∨
      ∃ index step, FirstFailing config steps index step ∧
        RefuseUnknown (start + index) (unknownArguments step) (runSteps config start steps)
          (runSteps config start steps') := by
  induction h generalizing start with
  | nil => exact Or.inl rfl
  | @cons step step' rest rest' hstep _ ih =>
    rw [runSteps, runSteps]
    rcases runStep_of_reordered config start hstep with heq | hrefuse
    · rw [heq]
      cases hrun : runStep config start step with
      | error failure => exact Or.inl rfl
      | ok first =>
        rcases ih (start + 1) with heq | ⟨index, failing, hfailing, hrefuse⟩
        · exact Or.inl (by rw [heq])
        · refine Or.inr ⟨index + 1, failing, hfailing.cons (runStep_ok_at hrun 0), ?_⟩
          rw [Nat.add_right_comm] at hrefuse
          exact hrefuse.bind _ _
    · refine Or.inr ⟨0, step, ⟨rfl, ⟨_, rfl⟩, fun out hout => ?_⟩, hrefuse.bind _ _⟩
      obtain ⟨-, op, name, -, -, -, hrun, -⟩ := hrefuse
      have hok := runStep_ok_at hout start
      rw [hrun] at hok
      cases hok

/-! ### Settings -/

theorem unknownNames_of_reorders {fields other : Fields} (h : fields.Reorders other) :
    unknownNames other = unknownNames fields := by
  have hnames : (fields.map (·.1)).Perm (other.map (·.1)) := h.perm.map _
  exact (Text.mergeSort_eq_of_perm (hnames.filter _)).symm

theorem readConfig_of_reordered {block block' : Value} (h : Reordered block block')
    (defaults : Config) : readConfig block' defaults = readConfig block defaults := by
  cases h with
  | same => rfl
  | @object fields other h =>
    have hsettings : override other defaults = override fields defaults := by
      simp only [override, h.get?]
    rw [readConfig_eq (Or.inr ⟨_, rfl⟩), readConfig_eq (Or.inr ⟨_, rfl⟩), settingsOf, settingsOf,
      unknownNames_of_reorders h, hsettings]

/-! ### Scripts -/

/-- An entry of a script with the settings, or the fields of each step, in another order. -/
inductive EntryReordered : Text × Value → Text × Value → Prop
  | same (entry : Text × Value) : EntryReordered entry entry
  | settings {name : Text} {block block' : Value} (hname : name = Text.ofString "config")
      (h : Reordered block block') : EntryReordered (name, block) (name, block')
  | steps {name : Text} {steps steps' : List Value} (hname : name = Text.ofString "operations")
      (h : List.Forall₂ Reordered steps steps') :
      EntryReordered (name, .list steps) (name, .list steps')

/-- A script with the fields of its settings and of each of its steps in another order. -/
inductive ScriptReordered : Value → Value → Prop
  | same (script : Value) : ScriptReordered script script
  | object {fields fields' : Fields} (h : List.Forall₂ EntryReordered fields fields') :
      ScriptReordered (.object fields) (.object fields')

theorem EntryReordered.name_eq {entry entry' : Text × Value} (h : EntryReordered entry entry') :
    entry'.1 = entry.1 := by
  cases h <;> rfl

/-- Under each name there stands what stood there, up to the order of fields. -/
theorem get?_of_entries {fields fields' : Fields} (h : List.Forall₂ EntryReordered fields fields')
    (name : Text) : Option.Rel (fun v v' => EntryReordered (name, v) (name, v'))
      (fields.get? name) (fields'.get? name) :=
  Fields.get?_of_forall₂ (fun _ _ => EntryReordered.name_eq) h name

theorem settingsBlock_of_reordered {script other : Value} (h : ScriptReordered script other) :
    Reordered (settingsBlock script) (settingsBlock other) := by
  cases h with
  | same => exact .same _
  | @object fields fields' h =>
    have hblock := get?_of_entries h "config"
    rw [settingsBlock, settingsBlock]
    generalize fields.get? "config" = block? at hblock ⊢
    generalize fields'.get? "config" = block?' at hblock ⊢
    cases hblock with
    | none => exact .same _
    | some hentry =>
      cases hentry with
      | same => exact .same _
      | settings _ hblock => exact hblock
      | steps hname _ => exact absurd hname (by decide)

/-- Both have a list of steps, the same up to the order of fields, or none has one. -/
theorem steps?_of_reordered {script other : Value} (h : ScriptReordered script other) :
    (∃ steps steps', steps? script = some steps ∧ steps? other = some steps' ∧
      List.Forall₂ Reordered steps steps') ∨
      ∀ defaults, run other defaults = run script defaults := by
  cases h with
  | same => exact Or.inr fun _ => rfl
  | @object fields fields' h =>
    have hsteps := get?_of_entries h "operations"
    simp only [steps?, run]
    generalize fields.get? "operations" = steps? at hsteps ⊢
    generalize fields'.get? "operations" = steps?' at hsteps ⊢
    cases hsteps with
    | none => exact Or.inr fun _ => rfl
    | @some v _ hentry =>
      cases hentry with
      | same => cases v with
        | list steps =>
          exact Or.inl ⟨steps, steps, rfl, rfl, List.forall₂_same.mpr fun step _ => .same step⟩
        | _ => exact Or.inr fun _ => rfl
      | settings hname _ => exact absurd hname (by decide)
      | steps _ hsteps => exact Or.inl ⟨_, _, rfl, rfl, hsteps⟩

/-- The order of fields does not matter.  With the fields of its settings and of its steps in
another order a script gives the same result or is refused with the same error, unless the first
step that fails has several unknown arguments: then both scripts are refused for one of them. -/
theorem run_of_reordered {script other : Value} (h : ScriptReordered script other)
    (defaults : Config) :
    run other defaults = run script defaults ∨
      ∃ config steps index step, readConfig (settingsBlock script) defaults = .ok config ∧
        steps? script = some steps ∧ FirstFailing config steps index step ∧
        RefuseUnknown index (unknownArguments step) (run script defaults)
          (run other defaults) := by
  rcases steps?_of_reordered h with ⟨steps, steps', hsteps, hsteps', hreordered⟩ | heq
  · have hconfig := readConfig_of_reordered (settingsBlock_of_reordered h) defaults
    rw [run_of_steps?_eq_some hsteps, run_of_steps?_eq_some hsteps', hconfig]
    cases hread : readConfig (settingsBlock script) defaults with
    | error failure => exact Or.inl rfl
    | ok config =>
      rcases runSteps_of_reordered config 0 hreordered with
        heq | ⟨index, step, hfailing, hrefuse⟩
      · refine Or.inl ?_
        change runUnder config steps' = runUnder config steps
        rw [runUnder, runUnder, heq]
      · rw [Nat.zero_add] at hrefuse
        exact Or.inr ⟨config, steps, index, step, rfl, hsteps, hfailing, hrefuse.bind _ _⟩
  · exact Or.inl (heq defaults)

/-- Settings and fields turned round, with an argument that the last operation does not know. -/
theorem run_of_reordered_turned :
    let script : Value :=
      .object [("config", .object [("dpi", .integer 300), ("suppress_separator", .flag false)]),
        ("operations", .list [
          .object [("op", .text "set_font"), ("height", .integer 40), ("font", .text "A")],
          .object [("width", .integer 20), ("op", .text "start")]])]
    let turned : Value :=
      .object [("config", .object [("suppress_separator", .flag false), ("dpi", .integer 300)]),
        ("operations", .list [
          .object [("font", .text "A"), ("height", .integer 40), ("op", .text "set_font")],
          .object [("op", .text "start"), ("width", .integer 20)]])]
    run turned {} = run script {} := by
  intro script turned
  have hreordered : ScriptReordered script turned :=
    .object (.cons (.settings rfl (.object ⟨.swap _ _ _, by decide⟩)) (.cons (.steps rfl (.cons
      (.object ⟨(List.reverse_perm _).symm, by decide⟩)
      (.cons (.object ⟨.swap _ _ _, by decide⟩) .nil))) .nil))
  refine (run_of_reordered hreordered {}).resolve_right ?_
  rintro ⟨config, steps, index, step, -, hsteps, hfailing, hrefuse⟩
  have hfew : ∀ steps, steps? script = some steps →
      ∀ step ∈ steps, (unknownArguments step).length < 2 := by
    rintro steps ⟨rfl⟩
    decide
  exact absurd hrefuse.several
    (Nat.not_le.mpr (hfew steps hsteps step (List.mem_of_getElem? hfailing.here)))

end Script

end ThermalLabel
