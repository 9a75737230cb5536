import ThermalLabel.Proofs.Label.Frames
import ThermalLabel.Proofs.Script.Respelling

/-!
# Choices are interchangeable

A text is accepted for a choice if it spells the name of a member, and a script gives the same for
all spellings of a member and for its number.  With another choice a script gives the same label,
but for the token of the choice in each place where it is shown.  This holds of integers that no
member has as well: they have tokens of their own.
-/
namespace ThermalLabel.Script

variable {op : Operation} {step : Fields} {f : Field} {e : Enumeration} {v v' : Value} {t : Text}

/-! ### Steps with another choice -/

theorem operation?_set (step : Fields) (p : Parameter) (v : Value) :
    operation? (step.set p.name v) = operation? step := by
  rw [operation?, operation?, Fields.get?_set_of_ne _ _ p.name_ne_op.symm]

/-- A field is looked up under no name but its own. -/
theorem get?_set_of_ne_parameter {f g : Field} (h : g.parameter ≠ f.parameter) (step : Fields)
    (v : Value) :
    (step.set f.parameter.name v).get? g.parameter.name = step.get? g.parameter.name := by
  refine Fields.get?_set_of_ne _ _ ?_
  rwa [Ne, Text.ofString_inj, Parameter.name_inj]

theorem argumentsOf_set (hf : f ∈ op.fields) (step : Fields) (v : Value) :
    argumentsOf op (step.set f.parameter.name v) =
      (argumentsOf op step).set f.parameter (settle f.type v) := by
  funext p
  by_cases hp : p = f.parameter
  · rw [hp, argumentsOf_apply _ hf, Fields.get?_set_self, Arguments.set_self]
    rfl
  · rw [Arguments.set_of_ne _ hp, argumentsOf, argumentsOf]
    cases hfind : op.fields.find? (·.parameter == p) with
    | none => rfl
    | some g =>
      have hg : g.parameter = p := by simpa using List.find?_some hfind
      have hne : g.parameter ≠ f.parameter := by rwa [hg]
      simp only [Option.bind_some, get?_set_of_ne_parameter hne]

theorem Admitted.set (hf : f ∈ op.fields) (h : Admitted op (step.set f.parameter.name v))
    (hv' : admits f.type v' = true) : Admitted op (step.set f.parameter.name v') := by
  constructor
  case complete =>
    intro g hg hrequired
    by_cases hp : g.parameter = f.parameter
    · rw [hp, Fields.get?_set_self, Option.isSome_some]
    · have hsome := h.complete g hg hrequired
      rwa [get?_set_of_ne_parameter hp] at hsome ⊢
  case known =>
    intro entry hentry
    have hname : entry.1 ∈ (step.set f.parameter.name v).map (·.1) := by
      rw [Fields.map_fst_set step _ v v']
      exact List.mem_map_of_mem hentry
    obtain ⟨known, hknown, hsame⟩ := List.mem_map.mp hname
    rw [← hsame]
    exact h.known known hknown
  case typed =>
    intro g hg w hw
    by_cases hp : g.parameter = f.parameter
    · have hsame : g = f := List.inj_on_of_nodup_map op.parameters_nodup hg hf hp
      rw [hp, Fields.get?_set_self, Option.mem_some_iff] at hw
      rwa [hsame, ← hw]
    · have htyped := h.typed g hg w
      rw [get?_set_of_ne_parameter hp] at htyped hw
      exact htyped hw

theorem admits_of_choose {chosen : Value} (h : choose e v = .ok chosen) :
    admits (.choice e) v = true := by
  by_contra hnot
  rw [choose_of_not_admits (by simpa using hnot)] at h
  exact refuseShowing_ne_ok _ _ _ h

/-- With another value for a choice, a step stands for the same call with what was chosen. -/
theorem callOf?_set (hf : f ∈ op.fields) (ht : f.type = .choice e) (hop : operation? step = some op)
    (h : Admitted op (step.set f.parameter.name v)) {chosen : Value} (hv' : choose e v' = .ok chosen) :
    callOf? (.object (step.set f.parameter.name v')) =
      some ⟨op, (argumentsOf op (step.set f.parameter.name v)).set f.parameter chosen⟩ := by
  have hadmitted : Admitted op (step.set f.parameter.name v') :=
    h.set hf (by rw [ht, admits_of_choose hv'])
  have hsettle : settle f.type v' = chosen := by rw [ht, settle, hv']
  refine callOf?_eq_some_iff.mpr ⟨_, op, rfl, by rw [operation?_set, hop], hadmitted, ?_⟩
  rw [argumentsOf_set hf, argumentsOf_set hf, hsettle, Arguments.set_set]

/-! ### What a value shows -/

/-- A value that is given for a choice, and the token that is shown for it. -/
inductive Shows (e : Enumeration) : Value → Text → Prop
  | member {m : Member} {v : Value} {t : String} (he : m.enumeration = e) (hv : Gives m v)
      (ht : e.tokens[m.number]? = some t) : Shows e v t
  | stray {n : Int} {t : Text} (hn : Member.ofNumber? e n = none) (ht : e.strayToken n = .ok t) :
      Shows e (.integer n) t

theorem choose_of_stray {n : Int} (h : Member.ofNumber? e n = none) :
    choose e (.integer n) = .ok (.integer n) := by
  rw [choose, ofNumber, h]

theorem tokenOf_of_shows (h : Shows e v t) :
    ∃ chosen, choose e v = .ok chosen ∧ TokenOf e chosen t := by
  cases h with
  | @member m _ _ he hv ht =>
    subst he
    exact ⟨.member m, choose_of_gives hv, m.number, rfl, .member ht⟩
  | @stray n _ hn ht => exact ⟨.integer n, choose_of_stray hn, n, rfl, .stray hn ht⟩

/-! ### Runs with another step -/

section Runs

variable {config : Config} {before after : List Value} {old : Value} {result : Result}

/-- The positions that a call gives. -/
def endingYsOf : Outcome → List Value
  | .same => []
  | .endingY y => [y]

theorem runUnder_of_callOf? {call : Call} (hcall : callOf? old = some call) {texts : List Text}
    {notices : List Notice} {o : Outcome}
    (hemit : call.operation.emit config call.arguments = ⟨texts.map .text, notices, .ok o⟩) :
    runUnder config [old] = .ok ⟨texts.flatMap (· ++ config.separator), endingYsOf o⟩ := by
  have hstep : runStep config 0 old = .ok ⟨texts.map .text, endingYsOf o⟩ := by
    rw [runStep_of_callOf? config 0 hcall, hemit]
    cases o <;> rfl
  have hsteps : runSteps config 0 [old] = .ok ⟨texts.map .text, endingYsOf o⟩ := by
    rw [runSteps, hstep]
    simp [runSteps, Output.append, bind, Except.bind, pure, Except.pure]
  exact runUnder_of_runSteps hsteps rfl

/-- In a run that succeeds, a step stands for a call that does. -/
theorem exists_call_of_runUnder (h : runUnder config (before ++ old :: after) = .ok result) :
    ∃ call o, callOf? old = some call ∧
      (call.operation.emit config call.arguments).outcome = .ok o := by
  obtain ⟨out, -, hout, -, -⟩ := runUnder_eq_ok_iff.mp h
  obtain ⟨-, others, -, hothers, -⟩ := runSteps_append_eq_ok_iff.mp hout
  obtain ⟨own, -, hown, -, -⟩ := runSteps_cons_eq_ok.mp hothers
  obtain ⟨call, hcall, hemission⟩ := runStep_eq_ok_iff.mp hown
  obtain ⟨o, ho, -, -⟩ := ofEmission_eq_ok hemission
  exact ⟨call, o, hcall, ho⟩

/-- The other steps of a run add the same whatever stands in the place of one of them. -/
theorem exists_append_of_runUnder (h : runUnder config (before ++ old :: after) = .ok result) :
    ∃ first last : Result, ∀ new own, runUnder config [new] = .ok own →
      runUnder config (before ++ new :: after) = .ok (first.append (own.append last)) := by
  obtain ⟨first, rest, hfirst, hrest, -⟩ := runUnder_append_eq_ok_iff.mp h
  obtain ⟨-, last, -, hlast, -⟩ :=
    runUnder_append_eq_ok_iff.mp (show runUnder config ([old] ++ after) = .ok rest from hrest)
  refine ⟨first, last, fun new own hown => ?_⟩
  have hnew : runUnder config ([new] ++ after) = .ok (own.append last) :=
    runUnder_append_eq_ok_iff.mpr ⟨own, last, hown, hlast, rfl⟩
  exact runUnder_append_eq_ok_iff.mpr ⟨first, _, hfirst, hnew, rfl⟩

/-- A step that cannot be written is the failure of a run that could do what is before it. -/
theorem runUnder_of_fault (h : runUnder config (before ++ old :: after) = .ok result) {new : Value}
    {call : Call} (hcall : callOf? new = some call) {fault : Fault}
    (hfault : (call.operation.emit config call.arguments).outcome = .error fault) :
    runUnder config (before ++ new :: after) = .error (.fault fault) := by
  obtain ⟨out, -, hout, -, -⟩ := runUnder_eq_ok_iff.mp h
  obtain ⟨first, -, hfirst, -, -⟩ := runSteps_append_eq_ok_iff.mp hout
  rw [runUnder_eq_error_iff, runSteps_append, hfirst, runSteps, runStep_of_callOf? config _ hcall,
    Output.ofEmission, hfault]
  rfl

end Runs

/-- The frame with a separator behind it. -/
def endFrame (separator : Text) (frame : Frame) : Frame :=
  ⟨frame.before, frame.after ++ separator⟩

theorem flatMap_endFrame (separator : Text) (frames : List Frame) (t : Text) :
    (frames.map (endFrame separator)).flatMap (Frame.fill t) =
      (frames.map (Frame.fill t)).flatMap (· ++ separator) := by
  simp [List.flatMap_map, Frame.fill, endFrame]

/-- The steps of a script with a value for a field of one of them. -/
def stepsWith (before after : List Value) (step : Fields) (f : Field) (v : Value) : List Value :=
  before ++ .object (step.set f.parameter.name v) :: after

/-- What is run succeeds with all values of a choice that show a token.  The label and the positions
are the same for all of them, but for the token, which stands in a number of places. -/
def SucceedsShowing (e : Enumeration) (places : Nat) (perform : Value → Checked Result) : Prop :=
  ∃ (front back : Text) (frames : List Frame) (ys : List Value), frames.length = places ∧
    ∀ v t, Shows e v t → perform v = .ok ⟨front ++ frames.flatMap (Frame.fill t) ++ back, ys⟩

/-- What is run ends with one fault for all values of a choice that show a token. -/
def FailsShowing (e : Enumeration) (perform : Value → Checked Result) : Prop :=
  ∃ fault, ∀ v t, Shows e v t → perform v = .error (.fault fault)

theorem runUnder_shows {config : Config} {before after : List Value} {result : Result}
    (hop : operation? step = some op) (hf : f ∈ op.fields) (ht : f.type = .choice e)
    (h : runUnder config (stepsWith before after step f v) = .ok result) :
    let a := argumentsOf op (step.set f.parameter.name v)
    let perform v' := runUnder config (stepsWith before after step f v')
    (SucceedsShowing e (op.places a) perform ∨
      e = .justification ∧ a.isCentred = true ∧ ¬(a .x).Short ∧ FailsShowing e perform) ∧
    ∀ n fault, Member.ofNumber? e n = none → e.strayToken n = .error fault →
      perform (.integer n) = .error (.fault fault) := by
  intro a perform
  obtain ⟨call, o, hcall, ho⟩ := exists_call_of_runUnder h
  obtain ⟨fields, op', hfields, hop', hadmitted, rfl⟩ := callOf?_eq_some_iff.mp hcall
  cases hfields
  rw [operation?_set, hop, Option.some.injEq] at hop'
  subst hop'
  refine ⟨?_, fun n fault hn hlong => ?_⟩
  · obtain ⟨frames, notices, outcome, hemit, hend⟩ := exists_frames hf ht hadmitted.fits ho
    rcases hend with ⟨o', rfl, hlength⟩ | ⟨fault, rfl, he, hcentred, hx⟩
    · obtain ⟨first, last, happend⟩ := exists_append_of_runUnder h
      refine .inl ⟨first.document, last.document, frames.map (endFrame config.separator),
        first.endingYs ++ endingYsOf o' ++ last.endingYs, ?_, fun v' t hshows => ?_⟩
      · rw [List.length_map, hlength]
      · obtain ⟨chosen, hchosen, htoken⟩ := tokenOf_of_shows hshows
        have hcall := callOf?_set hf ht hop hadmitted hchosen
        have htexts : op.emit config ((argumentsOf op (step.set f.parameter.name v)).set
            f.parameter chosen) = ⟨(frames.map (Frame.fill t)).map .text, notices, .ok o'⟩ := by
          rw [List.map_map]
          exact hemit chosen t htoken
        refine (happend _ _ (runUnder_of_callOf? hcall htexts)).trans ?_
        simp [Result.append, flatMap_endFrame]
    · refine .inr ⟨he, hcentred, hx, fault, fun v' t hshows => ?_⟩
      obtain ⟨chosen, hchosen, htoken⟩ := tokenOf_of_shows hshows
      exact runUnder_of_fault h (callOf?_set hf ht hop hadmitted hchosen)
        (congrArg Emission.outcome (hemit chosen t htoken))
  · have hroundness : e = .roundness := by
      cases e with
      | roundness => rfl
      | _ => cases hlong
    subst hroundness
    have hfault := emit_of_long_roundness (takes_of_mem hf ht) ho (v := .integer n) rfl hlong
    exact runUnder_of_fault h (callOf?_set hf ht hop hadmitted (choose_of_stray hn))
      (congrArg Emission.outcome hfault)

/-- All spellings of a choice are interchangeable.  A text is accepted for a choice exactly if it has
the plain name of a member, which no other member shares; so underscores and hyphens that are put in
or left out, and the case of ASCII letters, change neither whether it is accepted nor for which
member.  Scripts whose choices are given by other spellings of the same members, or by their
numbers, end alike.  A script that succeeds with some value of a choice does so with all others: they
show their tokens in the same places, and an integer that no member has shows the token that the
parameter has for it.  The exceptions are a rounding that is too long to be written, and other
justifications of a centred text whose position, which it does not show, is too long. -/
theorem choices_interchangeable :
    (∀ (e : Enumeration) (s : Text) (v : Value), choose e (.text s) = .ok v ↔
      ∃ m : Member, m.enumeration = e ∧ plainName m.name = plainName s ∧ v = .member m) ∧
    (∀ m m' : Member, m.enumeration = m'.enumeration → plainName m.name = plainName m'.name →
      m = m') ∧
    (∀ s t : Text, Relation.ReflTransGen Respelling s t → ∀ (e : Enumeration) (v : Value),
      choose e (.text t) = .ok v ↔ choose e (.text s) = .ok v) ∧
    (∀ (fields : Fields) (defaults : Config) (steps steps' : List Value),
      List.Forall₂ StepRespelled steps steps' →
        run (withSteps fields steps') defaults = run (withSteps fields steps) defaults) ∧
    ∀ (fields : Fields) (defaults : Config) (before after : List Value) (step : Fields)
      (op : Operation) (f : Field) (e : Enumeration) (v : Value) (result : Result),
      let a := argumentsOf op (step.set f.parameter.name v)
      let perform v' := run (withSteps fields (stepsWith before after step f v')) defaults
      operation? step = some op → f ∈ op.fields → f.type = .choice e → perform v = .ok result →
        (SucceedsShowing e (op.places a) perform ∨
          e = .justification ∧ a.isCentred = true ∧ ¬(a .x).Short ∧ FailsShowing e perform) ∧
        ∀ n fault, Member.ofNumber? e n = none → e.strayToken n = .error fault →
          perform (.integer n) = .error (.fault fault) := by
  refine ⟨fun e s v => choose_text_eq_ok_iff, fun m m' => eq_of_plainName, fun s t h e v => ?_,
    fun fields defaults steps steps' => run_of_respelled fields defaults, ?_⟩
  · have hplain : plainName t = plainName s := by
      induction h with
      | refl => rfl
      | tail _ hstep ih => rw [plainName_of_respelling hstep, ih]
    rw [choose_text_eq_ok_iff, choose_text_eq_ok_iff, hplain]
  · intro fields defaults before after step op f e v result a perform hop hf ht h
    simp only [perform, run_withSteps] at h ⊢
    cases hconfig : readConfig ((fields.get? "config").getD .null) defaults with
    | error failure =>
      rw [hconfig] at h
      cases h
    | ok config =>
      rw [hconfig] at h
      exact runUnder_shows hop hf ht h

/-- A white box on a small label, its colour spelled in an odd way, given by its number, and replaced
by a number that no colour has, which is shown as black. -/
theorem choices_interchangeable_box :
    let step : Fields := [("op", .text "draw_box_at"), ("x", .integer 10), ("y", .integer 20),
      ("width", .integer 30), ("height", .integer 40), ("line_thickness", .integer 2)]
    let steps (v : Value) : List Value := stepsWith [.object [("op", .text "start")]]
      [.object [("op", .text "end")]] step (.option .color .black) v
    let white : Member := ⟨.color, 1, by decide⟩
    choose .color (.text "w-H_ite") = .ok (.member white) ∧
      run (withSteps [] (steps (.integer 1))) {} =
        run (withSteps [] (steps (.text "w-H_ite"))) {} ∧
      run (withSteps [] (steps (.integer 7))) {} = run (withSteps [] (steps (.text "black"))) {} := by
  intro step steps white
  obtain ⟨haccepts, -, hrespelled, hruns, hshows⟩ := choices_interchangeable
  have hpath : Relation.ReflTransGen Respelling "white" "w-H_ite" :=
    .head (.insert "w" "hite" (.inr rfl)) (.head (.insert "w-h" "ite" (.inl rfl))
      (.single (.recase "w-" "_ite" rfl)))
  have hwhite : choose .color (.text "w-H_ite") = .ok (.member white) :=
    (hrespelled "white" "w-H_ite" hpath .color _).mpr
      ((haccepts .color "white" _).mpr ⟨white, rfl, by decide, rfl⟩)
  refine ⟨hwhite, ?_, ?_⟩
  · have hcolor : EntryRespelled Operation.drawBoxAt.fields ("color", .text "w-H_ite")
        ("color", .integer 1) :=
      .choice (f := .option .color .black) (m := white) (by simp [Operation.fields]) rfl
        (.spelling (by decide)) .number
    have hstep : StepRespelled (.object (step.set "color" (.text "w-H_ite")))
        (.object (step.set "color" (.integer 1))) := by
      have hop : operation? (step.set "color" (.text "w-H_ite")) = some .drawBoxAt := rfl
      refine .object hop ?_
      exact .cons (.same _) (.cons (.same _) (.cons (.same _) (.cons (.same _) (.cons (.same _)
        (.cons (.same _) (.cons hcolor .nil))))))
    exact hruns [] {} _ _ (.cons (.same _) (.cons hstep (.cons (.same _) .nil)))
  · obtain ⟨result, hrun⟩ : ∃ result, run (withSteps [] (steps (.text "black"))) {} = .ok result :=
      ⟨_, rfl⟩
    have hplace := (hshows [] {} _ _ step .drawBoxAt (.option .color .black) .color (.text "black")
      result rfl (by simp [Operation.fields]) rfl hrun).1
    rcases hplace with ⟨front, back, frames, ys, -, hall⟩ | ⟨hcolor, -⟩
    · have hstray : Shows .color (.integer 7) "B" := .stray rfl rfl
      have hblack : Shows .color (.text "black") "B" :=
        .member (m := .black) (t := "B") rfl (.spelling (by decide)) rfl
      exact (hall _ _ hstray).trans (hall _ _ hblack).symm
    · cases hcolor

end ThermalLabel.Script
