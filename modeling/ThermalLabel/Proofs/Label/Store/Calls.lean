import ThermalLabel.Proofs.Label.Store.Wrapped

/-!
# Documents as labels over objects

A document is a label over values: each of its calls, and with it every history of calls, is the
same as that of the label, as long as the loops have the passes that they need.
-/
namespace ThermalLabel

namespace Store

open Objects Act

variable {α : Type} {c : Config}

/-! ### Questions about a document -/

variable {d : Document} {s : Scene Store Handle}

theorem renderFrom_values (separator : Text) (hs : s.label = d.label) {passes n : Nat}
    (hpasses : d.fragments.length - n < passes) :
    objects.renderFrom separator passes n s =
      ((renderFragments separator (d.fragments.drop n)).mapError .raised, s) := by
  have hsettings : s.label.settings = d.config.settings := congrArg Label.settings hs
  have hfragments : s.label.fragments = d.fragments.map .value := congrArg Label.fragments hs
  induction passes generalizing n with
  | zero => omega
  | succ passes ih =>
    rw [renderFrom, bind_apply]
    dsimp only [Act.label]
    rw [hfragments, List.getElem?_map]
    cases hget : d.fragments[n]? with
    | none =>
      rw [List.drop_eq_nil_of_le (List.getElem?_eq_none_iff.mp hget)]
      rfl
    | some v =>
      obtain ⟨hlt, hv⟩ := List.getElem?_eq_some_iff.mp hget
      have htext : objects.text (.value v) s = (v.toText.mapError .raised, s) :=
        gives_text v s hsettings
      rw [List.drop_eq_getElem_cons hlt, hv, renderFragments]
      dsimp only [Option.map]
      rw [bind_apply, htext]
      cases v.toText with
      | error f => rfl
      | ok t =>
        change (objects.renderFrom separator passes (n + 1) >>= fun more =>
          pure (t ++ separator ++ more)) s = _
        rw [bind_apply, ih (by omega)]
        cases renderFragments separator (d.fragments.drop (n + 1)) <;> rfl

theorem render_values (hs : s.label = d.label) {passes : Nat}
    (hpasses : d.fragments.length < passes) :
    objects.render passes s = (d.render.mapError .raised, s) := by
  have hsettings : s.label.settings = d.config.settings := congrArg Label.settings hs
  have hseparator : separator d.config.suppressSeparator.truthy = d.config.separator := by
    rw [separator, Config.separator]
    split <;> rfl
  rw [Objects.render, bind_apply]
  dsimp only [Act.label]
  have hquiet : objects.question (.truth s.label.settings.suppressSeparator) s =
      (.ok d.config.suppressSeparator.truthy, s) := by
    rw [hsettings]
    exact gives_truth d.config.suppressSeparator s hsettings
  rw [bind_apply, hquiet]
  dsimp only
  rw [hseparator]
  exact renderFrom_values _ hs (by omega)

theorem gives_wording (v : Value) : Gives c (objects.question (.wording (.value v))) v.quoted :=
  gives_question fun _ => rfl

theorem description_values (hs : s.label = d.label) :
    objects.description s = (d.description.mapError .raised, s) := by
  have hsettings : s.label.settings = d.config.settings := congrArg Label.settings hs
  have hcount : s.label.fragments.length = d.fragments.length := by
    rw [hs]
    exact List.length_map _
  rw [Objects.description, bind_apply, Document.description, Config.description]
  simp only [bind_assoc, pure_bind]
  dsimp only [Act.label]
  rw [hsettings]
  refine (gives_wording d.config.dpi).bind_at hsettings fun dpi _ =>
    (gives_wording d.config.maxWidth).bind_at hsettings fun width _ =>
    (gives_wording d.config.suppressSeparator).bind_at hsettings fun quiet _ => ?_
  have hopening : Text.ofString "ZplGenerator(SessionConfig(dpi=" =
      Text.ofString "ZplGenerator(" ++ Text.ofString "SessionConfig(dpi=" := by rfl
  have hclosing : Text.ofString "), fragments=" =
      Text.ofString ")" ++ Text.ofString ", fragments=" := by rfl
  rw [bind_apply]
  dsimp only [Act.label]
  rw [hcount, hopening, hclosing]
  simp only [List.append_assoc]
  rfl

/-! ### Calls -/

section Binding

/-- Arguments as objects. -/
def wrapAll {κ : Type} (bound : List (κ × Value)) : List (κ × Handle) :=
  bound.map fun e => (e.1, .value e.2)

theorem lookup_wrapAll {κ : Type} [BEq κ] (bound : List (κ × Value)) (k : κ) :
    (wrapAll bound).lookup k = (bound.lookup k).map .value := by
  induction bound with
  | nil => rfl
  | cons e rest ih =>
    obtain ⟨key, v⟩ := e
    change List.lookup k ((key, .value v) :: wrapAll rest) = _
    rw [List.lookup_cons, List.lookup_cons, ih]
    cases k == key <;> rfl

theorem valueFrom_wrapAll (named : Fields) (f : Field) :
    objects.valueFrom (wrapAll named) f = (f.valueFrom named).map .value := by
  rw [Objects.valueFrom, Field.valueFrom, lookup_wrapAll, Fields.get?, Option.map_or]
  rfl

theorem byPosition_wrapAll (fields : List Field) (given : List Value) :
    byPosition fields (given.map .value) = wrapAll (byPosition fields given) := by
  induction fields generalizing given with
  | nil => cases given <;> rfl
  | cons f fields ih =>
    cases given with
    | nil => rfl
    | cons v rest => exact congrArg _ (ih rest)

theorem byName_wrapAll (named : Fields) (fields : List Field) :
    objects.byName (wrapAll named) fields = wrapAll (ThermalLabel.byName named fields) := by
  change _ = List.map _ (List.filterMap _ fields)
  rw [Objects.byName, List.map_filterMap]
  congr 1
  funext f
  rw [valueFrom_wrapAll, Option.map_map, Option.map_map]
  rfl

/-- Arguments fit as objects if they fit as values. -/
theorem bind_wrapAll (fields : List Field) (given : List Value) (named : Fields) :
    (bindCall fields given named = .error .wrongType ∧
      objects.bind fields (given.map .value) (wrapAll named) = none) ∨
    ∃ a, bindCall fields given named = .ok a ∧
      objects.bind fields (given.map .value) (wrapAll named) = some a.handles := by
  have hnames (free : List Field) :
      (wrapAll named).any (fun e => !free.any fun f => f.parameter.isNamed e.1) =
        named.any fun e => !free.any fun f => f.parameter.isNamed e.1 := by
    rw [wrapAll, List.any_map]
    rfl
  have hfree (free : List Field) :
      (free.any fun f => (objects.valueFrom (wrapAll named) f).isNone) =
        free.any fun f => (f.valueFrom named).isNone := by
    simp only [valueFrom_wrapAll, Option.isNone_map]
  rw [Objects.bind, bindCall]
  simp only [List.length_map, hnames, hfree, byPosition_wrapAll, byName_wrapAll]
  split
  · exact .inl ⟨rfl, rfl⟩
  · split
    · exact .inl ⟨rfl, rfl⟩
    · split
      · exact .inl ⟨rfl, rfl⟩
      · refine .inr ⟨_, rfl, congrArg some (funext fun p => ?_)⟩
        rw [wrapAll, wrapAll, ← List.map_append]
        change ((wrapAll _).lookup p).getD (.value .null) = _
        rw [lookup_wrapAll, Option.getD_map]
        rfl

theorem conversionArgument_wrapAll (given : List Value) (named : Fields) :
    (Document.conversionArgument given named = .error .wrongType ∧
      Objects.conversionArgument (given.map Handle.value) (wrapAll named) = none) ∨
    ∃ v, Document.conversionArgument given named = .ok v ∧
      Objects.conversionArgument (given.map Handle.value) (wrapAll named) = some (.value v) := by
  rcases given with _ | ⟨v, _ | ⟨_, _⟩⟩
  · rcases named with _ | ⟨⟨name, v⟩, _ | ⟨_, _⟩⟩
    · exact .inl ⟨rfl, rfl⟩
    · by_cases hname : name = "inches"
      · exact .inr ⟨v, if_pos hname, if_pos hname⟩
      · exact .inl ⟨if_neg hname, if_neg hname⟩
    · exact .inl ⟨rfl, rfl⟩
  · cases named with
    | nil => exact .inr ⟨v, rfl, rfl⟩
    | cons _ _ => exact .inl ⟨rfl, rfl⟩
  · exact .inl ⟨rfl, rfl⟩

end Binding

/-! ### Calls of a document -/

/-- A call over objects ends as a call of the document does, and leaves the document's label. -/
structure Agrees (w : Store) (outcome : Except (Stop Fault) (Returned Handle) × Scene Store Handle)
    (call : Document × Reply) : Prop where
  answer : outcome.1.map (answerOf outcome.2.world) = call.2.answer.mapError .raised
  scene : outcome.2 = ⟨w.tell call.2.notices, call.1.label⟩

/-- The outcome leaves everything as it is, and the call notices nothing. -/
theorem Agrees.unchanged {w : Store} {result : Except (Stop Fault) (Returned Handle)}
    {answer : Except Fault Answer} (h : result.map (answerOf w) = answer.mapError .raised) :
    Agrees w (result, ⟨w, d.label⟩) (d, { answer }) :=
  ⟨h, congrArg (Scene.mk · _) (tell_nil w).symm⟩

/-- A question about the document. -/
theorem Agrees.query {w : Store} {act : Act Store Fault Handle α} {r : Except Fault α}
    (hact : act ⟨w, d.label⟩ = (r.mapError .raised, ⟨w, d.label⟩)) {returned : α → Returned Handle}
    {result : α → Value} (h : ∀ a, answerOf w (returned a) = .result (result a)) :
    Agrees w ((act >>= fun a => pure (returned a)) ⟨w, d.label⟩)
      (d, { answer := (r.map result).map .result }) := by
  rw [bind_apply, hact]
  cases r with
  | error f => exact .unchanged rfl
  | ok a => exact .unchanged (congrArg Except.ok (h a))

/-- With values for arguments, and with the passes that its loop needs, a call over objects ends as
the call of the document does. -/
theorem call_values (d : Document) (m : Method) (given : List Value) (named : Fields) :
    ∃ enough, ∀ passes, enough ≤ passes → ∀ w,
      Agrees w (objects.call passes m (given.map .value) (wrapAll named) ⟨w, d.label⟩)
        (d.call m given named) := by
  cases m with
  | operation op =>
    rcases bind_wrapAll op.fields given named with ⟨hcall, hbound⟩ | ⟨a, hcall, hbound⟩
    · refine ⟨0, fun passes _ w => ?_⟩
      rw [Objects.call, hbound, Document.call, hcall]
      exact .unchanged rfl
    · obtain ⟨enough, henough⟩ := performs d.config a op
      refine ⟨enough, fun passes hpasses w => ?_⟩
      obtain ⟨hanswer, hscene⟩ := henough passes hpasses ⟨w, d.label⟩ rfl
      rw [Objects.call, hbound, Document.call, hcall]
      refine ⟨hanswer, hscene.trans (congrArg (Scene.mk _) ?_)⟩
      simp [Document.perform, Document.append, Document.label, Label.append]
  | render =>
    refine ⟨d.fragments.length + 1, fun passes hpasses w => ?_⟩
    have hgiven : (given.map Handle.value).isEmpty = given.isEmpty := List.isEmpty_map
    have hnamed : (wrapAll named).isEmpty = named.isEmpty := List.isEmpty_map
    have hcall : d.call .render given named =
        (d, { answer := (d.query .render given named).map .result }) := rfl
    rw [hcall, Objects.call, hgiven, hnamed, Document.query]
    split
    · exact .query (render_values rfl hpasses) fun _ => rfl
    · exact .unchanged rfl
  | text =>
    refine ⟨d.fragments.length + 1, fun passes hpasses w => ?_⟩
    exact .query (render_values rfl hpasses) fun _ => rfl
  | description => exact ⟨0, fun _ _ w => .query (description_values rfl) fun _ => rfl⟩
  | settings => exact ⟨0, fun _ _ w => .unchanged rfl⟩
  | dots =>
    refine ⟨0, fun passes _ w => ?_⟩
    have hcall : d.call .dots given named =
        (d, { answer := (d.query .dots given named).map .result }) := rfl
    rw [hcall, Objects.call, Document.query]
    rcases conversionArgument_wrapAll given named with ⟨hvalue, hobject⟩ | ⟨v, hvalue, hobject⟩
    · rw [hobject, hvalue]
      exact .unchanged rfl
    · have hdots : Gives d.config (objects.question (.dots (.value d.config.dpi) (.value v)))
          ((ThermalLabel.dots d.config.dpi v).map fun n => .value (.integer n)) :=
        gives_question fun _ => rfl
      have hvalues : (ThermalLabel.dots d.config.dpi v >>= fun n => pure (Value.integer n)) =
          ((ThermalLabel.dots d.config.dpi v).map fun n => Handle.value (.integer n)).map
            w.see := by
        cases ThermalLabel.dots d.config.dpi v <;> rfl
      have hobjects := Agrees.query (hdots ⟨w, d.label⟩ rfl)
        fun v => show answerOf w (.object v) = .result (w.see v) from rfl
      rw [hobject, hvalue]
      rw [← hvalues] at hobjects
      exact hobjects

/-- A call of a document, looked at for so many passes. -/
def turnOf (passes : Nat) (i : Invocation) : Turn Store Handle where
  method := i.method
  given := i.given.map .value
  named := wrapAll i.named
  passes

/-- The history of a document is that of its label. -/
theorem afterAll_values (d : Document) (history : List Invocation) :
    ∃ enough, ∀ passes, enough ≤ passes → ∀ w,
      (objects.afterAll ⟨w, d.label⟩ (history.map (turnOf passes))).label =
        (d.afterAll history).label := by
  induction history generalizing d with
  | nil => exact ⟨0, fun _ _ _ => rfl⟩
  | cons i rest ih =>
    obtain ⟨first, hfirst⟩ := call_values d i.method i.given i.named
    obtain ⟨more, hmore⟩ := ih (d.after i)
    refine ⟨max first more, fun passes hpasses w => ?_⟩
    have hafter : objects.after ⟨w, d.label⟩ (turnOf passes i) =
        ⟨w.tell (d.reply i).notices, (d.after i).label⟩ :=
      (hfirst passes ((Nat.le_max_left _ _).trans hpasses) w).scene
    rw [List.map_cons, afterAll, List.foldl_cons, hafter]
    exact hmore passes ((Nat.le_max_right _ _).trans hpasses) _

end Store

end ThermalLabel
