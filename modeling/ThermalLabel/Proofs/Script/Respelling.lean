import ThermalLabel.Proofs.Script.Choice
import ThermalLabel.Proofs.Script.Composition

/-!
# Scripts whose choices are spelled in another way

A choice is given by a spelling of a member's name or by its number.  Reading a step replaces all of
these by the member, so that scripts that differ in the spellings of their choices run alike: they
give the same label and the same positions, or fail with the same error.
-/
namespace ThermalLabel.Script

/-- The value stands for the member: it spells its name, is its number, or is the member itself. -/
inductive Gives (m : Member) : Value → Prop
  | spelling {s : Text} (h : plainName m.name = plainName s) : Gives m (.text s)
  | number : Gives m (.integer m.number)
  | itself : Gives m (.member m)

theorem choose_of_gives {m : Member} {v : Value} (h : Gives m v) :
    choose m.enumeration v = .ok (.member m) := by
  cases h with
  | spelling h => rw [choose, findName?_eq_some_iff.mpr ⟨rfl, h⟩]
  | number => rw [choose, ofNumber, m.ofNumber?_number]
  | itself => rw [choose, ofNumber, m.ofNumber?_number]

theorem choose_text_eq_ok_iff {e : Enumeration} {s : Text} {v : Value} :
    choose e (.text s) = .ok v ↔
      ∃ m : Member, m.enumeration = e ∧ plainName m.name = plainName s ∧ v = .member m := by
  constructor
  · intro h
    cases hfind : findName? e s with
    | none =>
      rw [choose, hfind] at h
      exact absurd h (refuseShowing_ne_ok _ _ _)
    | some m =>
      obtain ⟨he, hplain⟩ := findName?_eq_some_iff.mp hfind
      rw [choose, hfind] at h
      exact ⟨m, he, hplain, (Except.ok.inj h).symm⟩
  · rintro ⟨m, rfl, hplain, rfl⟩
    exact choose_of_gives (.spelling hplain)

/-! ### Steps with the same choices -/

/-- Two entries of a step, the same or under the name of one of the fields, a choice, with two
values that stand for the same member. -/
inductive EntryRespelled (fs : List Field) : Text × Value → Text × Value → Prop
  | same (entry : Text × Value) : EntryRespelled fs entry entry
  | choice {f : Field} {m : Member} {v v' : Value} (hf : f ∈ fs)
      (ht : f.type = .choice m.enumeration) (hv : Gives m v) (hv' : Gives m v') :
      EntryRespelled fs (Text.ofString f.parameter.name, v) (Text.ofString f.parameter.name, v')

theorem EntryRespelled.name_eq {fs : List Field} {entry entry' : Text × Value}
    (h : EntryRespelled fs entry entry') : entry'.1 = entry.1 := by
  cases h <;> rfl

/-- Two values of a step, the same or fields of one operation with some choices spelled in another
way. -/
inductive StepRespelled : Value → Value → Prop
  | same (step : Value) : StepRespelled step step
  | object {fields fields' : Fields} {op : Operation} (hop : operation? fields = some op)
      (h : List.Forall₂ (EntryRespelled op.fields) fields fields') :
      StepRespelled (.object fields) (.object fields')

section ReadingChoices

variable {f : Field} {rest : List Field} {given given' : Fields}

/-- Under another name than that of the field, an entry is a choice for one of the rest. -/
theorem EntryRespelled.of_name_ne {entry entry' : Text × Value}
    (h : EntryRespelled (f :: rest) entry entry')
    (hname : entry.1 ≠ Text.ofString f.parameter.name) : EntryRespelled rest entry entry' := by
  cases h with
  | same => exact .same _
  | choice hmem ht hv hv' =>
    rcases List.mem_cons.mp hmem with rfl | hmem
    · exact absurd rfl hname
    · exact .choice hmem ht hv hv'

/-- A field that is no choice has no other spellings. -/
theorem respelled_of_not_choice (hf : isChoice f.type = false)
    (h : List.Forall₂ (EntryRespelled (f :: rest)) given given') :
    List.Forall₂ (EntryRespelled rest) given given' := by
  refine h.imp fun entry entry' hentry => ?_
  cases hentry with
  | same => exact .same _
  | choice hmem ht hv hv' =>
    rcases List.mem_cons.mp hmem with rfl | hmem
    · rw [ht] at hf
      cases hf
    · exact .choice hmem ht hv hv'

/-- Nor has a field that is not given. -/
theorem respelled_of_absent (hf : given.get? f.parameter.name = none)
    (h : List.Forall₂ (EntryRespelled (f :: rest)) given given') :
    List.Forall₂ (EntryRespelled rest) given given' := by
  induction h with
  | nil => exact .nil
  | @cons entry entry' _ _ hentry _ ih =>
    rw [Fields.get?_cons] at hf
    split at hf
    · cases hf
    · rename_i hname
      exact .cons (hentry.of_name_ne (Ne.symm hname)) (ih hf)

/-- A choice that was read has one spelling left. -/
theorem respelled_of_chosen (chosen : Value)
    (h : List.Forall₂ (EntryRespelled (f :: rest)) given given') :
    List.Forall₂ (EntryRespelled rest)
      (given.map fun entry => if f.parameter.isNamed entry.1 then (entry.1, chosen) else entry)
      (given'.map fun entry =>
        if f.parameter.isNamed entry.1 then (entry.1, chosen) else entry) := by
  rw [List.forall₂_map_left_iff, List.forall₂_map_right_iff]
  refine h.imp fun entry entry' hentry => ?_
  rw [hentry.name_eq]
  split
  · exact .same _
  · rename_i hname
    exact hentry.of_name_ne fun heq => hname (Parameter.isNamed_iff.mpr heq)

theorem choose_of_respelled (hnodup : ((f :: rest).map (·.parameter)).Nodup) {e : Enumeration}
    (ht : f.type = .choice e) {v v' : Value}
    (h : EntryRespelled (f :: rest) (Text.ofString f.parameter.name, v)
      (Text.ofString f.parameter.name, v')) : choose e v' = choose e v := by
  generalize hentry : (Text.ofString f.parameter.name, v) = entry at h
  generalize hentry' : (Text.ofString f.parameter.name, v') = entry' at h
  cases h with
  | same =>
    rw [← hentry] at hentry'
    rw [(Prod.mk.inj hentry').2]
  | @choice g m w w' hmem htype hv hv' =>
    obtain ⟨hname, rfl⟩ := Prod.mk.inj hentry
    obtain ⟨-, rfl⟩ := Prod.mk.inj hentry'
    have hsame : g = f := by
      rcases List.mem_cons.mp hmem with hsame | hmem
      · exact hsame
      · exact absurd hname.symm (name_ne_of_nodup hnodup hmem)
    rw [hsame, ht] at htype
    cases htype
    rw [choose_of_gives hv, choose_of_gives hv']

theorem readChoices_of_respelled {fs : List Field} (hnodup : (fs.map (·.parameter)).Nodup)
    (h : List.Forall₂ (EntryRespelled fs) given given') :
    readChoices fs given' = readChoices fs given := by
  induction fs generalizing given given' with
  | nil =>
    have heq : given = given' := by
      rw [← List.forall₂_eq_eq_eq (α := Text × Value)]
      refine h.imp fun entry entry' hentry => ?_
      cases hentry with
      | same => rfl
      | choice hmem => cases hmem
    rw [heq]
  | cons f rest ih =>
    have hrest := (List.nodup_cons.mp hnodup).2
    have hget := Fields.get?_of_forall₂ (fun _ _ => EntryRespelled.name_eq) h f.parameter.name
    rw [readChoices, readChoices]
    cases ht : f.type with
    | choice e =>
      generalize hv : given.get? f.parameter.name = v? at hget
      generalize hv' : given'.get? f.parameter.name = v?' at hget
      cases hget with
      | none => exact ih hrest (respelled_of_absent hv h)
      | @some v v' hentry =>
        dsimp only
        rw [choose_of_respelled hnodup ht hentry]
        cases choose e v with
        | error failure => rfl
        | ok chosen => exact ih hrest (respelled_of_chosen chosen h)
    | _ => exact ih hrest (respelled_of_not_choice (by rw [ht]; rfl) h)

end ReadingChoices

/-! ### Runs -/

/-- The entry that names the operation is none of its fields. -/
theorem operationOf_of_respelled (index : Nat) {op : Operation} {fields fields' : Fields}
    (h : List.Forall₂ (EntryRespelled op.fields) fields fields') :
    operationOf index fields' = operationOf index fields := by
  have hget := Fields.get?_of_forall₂ (fun _ _ => EntryRespelled.name_eq) h "op"
  rw [operationOf, operationOf]
  generalize fields.get? "op" = name? at hget ⊢
  generalize fields'.get? "op" = name?' at hget ⊢
  cases hget with
  | none => rfl
  | @some v v' hentry =>
    generalize hname : (Text.ofString "op", v) = entry at hentry
    generalize hname' : (Text.ofString "op", v') = entry' at hentry
    cases hentry with
    | same =>
      rw [← hname] at hname'
      rw [(Prod.mk.inj hname').2]
    | @choice f => exact absurd (Prod.mk.inj hname).1.symm f.parameter.name_ne_op

theorem readStep_of_respelled (index : Nat) {step step' : Value} (h : StepRespelled step step') :
    readStep index step' = readStep index step := by
  cases h with
  | same => rfl
  | @object fields fields' op hop h =>
    have hspec := operationOf_spec index fields
    rw [hop] at hspec
    have hgiven : List.Forall₂ (EntryRespelled op.fields)
        (fields.filter fun entry => entry.1 ≠ Text.ofString "op")
        (fields'.filter fun entry => entry.1 ≠ Text.ofString "op") :=
      List.rel_filter (fun _ _ hentry => by simp only [hentry.name_eq]) h
    rw [readStep, readStep, operationOf_of_respelled index h, hspec]
    simp only [bindStep, readChoices_of_respelled op.parameters_nodup hgiven, bind, Except.bind]

theorem runSteps_of_respelled (config : Config) (index : Nat) {steps steps' : List Value}
    (h : List.Forall₂ StepRespelled steps steps') :
    runSteps config index steps' = runSteps config index steps := by
  induction h generalizing index with
  | nil => rfl
  | cons hstep _ ih =>
    rw [runSteps, runSteps, runStep, runStep, readStep_of_respelled index hstep, ih]

/-- How the choices of a script are spelled does not matter to anything that it gives. -/
theorem run_of_respelled (fields : Fields) (defaults : Config) {steps steps' : List Value}
    (h : List.Forall₂ StepRespelled steps steps') :
    run (withSteps fields steps') defaults = run (withSteps fields steps) defaults := by
  simp only [run_withSteps, runUnder, runSteps_of_respelled _ _ h]

end ThermalLabel.Script
