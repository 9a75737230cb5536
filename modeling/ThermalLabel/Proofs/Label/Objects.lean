import ThermalLabel.Label.Store
import ThermalLabel.Proofs.Label.History

/-!
# Labels over objects only grow

What is asked of objects is followed through every method: a relation between labels that each
question respects, and that nothing and two steps in a row respect as well, is respected by what is
built from questions.  Two such relations are used.  A label may be extended while a question is
answered, as by an object that calls the label itself; and it may be left alone, as by every object
that does not.

Nothing is said about objects that reach into the fields of the label.  Nor need a call come to its
end: words that never run out keep the loop over them going, and what is said of a call then holds
behind any number of passes.
-/
namespace ThermalLabel

variable {W E V α β : Type}

/-- The settings are the same objects, and the fragments of the first stand in front. -/
structure Label.Extends (l l' : Label V) : Prop where
  settings : l'.settings = l.settings
  fragments : l.fragments <+: l'.fragments

theorem Label.Extends.refl (l : Label V) : l.Extends l :=
  ⟨rfl, List.prefix_refl _⟩

theorem Label.Extends.trans {l l' l'' : Label V} (h : l.Extends l') (h' : l'.Extends l'') :
    l.Extends l'' :=
  ⟨h'.settings.trans h.settings, h.fragments.trans h'.fragments⟩

theorem Label.extends_append (l : Label V) (added : List V) : l.Extends (l.append added) :=
  ⟨rfl, List.prefix_append _ _⟩

theorem Label.append_nil (l : Label V) : l.append [] = l := by
  simp [append]

theorem Label.append_append (l : Label V) (added more : List V) :
    (l.append added).append more = l.append (added ++ more) := by
  simp [append]

/-! ### Acts that respect a relation -/

namespace Act

variable {R : Label V → Label V → Prop}

/-- The label after the act stands in the relation to the label before it. -/
def Keeps (R : Label V → Label V → Prop) (act : Act W E V α) : Prop :=
  ∀ s, R s.label (act s).2.label

/-- The result of an act and what it has added to the label satisfy a condition. -/
def Adds (P : Except (Stop E) α → List V → Prop) (act : Act W E V α) : Prop :=
  ∀ s, ∃ added, (act s).2.label = s.label.append added ∧ P (act s).1 added

/-- All of so many fragments are added, or none if there is no result. -/
def AllOrNone (n : Nat) (act : Act W E V α) : Prop :=
  act.Adds fun result added =>
    (∀ a, result = .ok a → added.length = n) ∧ (∀ stop, result = .error stop → added = [])

theorem bind_apply (act : Act W E V α) (next : α → Act W E V β) (s : Scene W V) :
    (act >>= next) s = match act s with
      | (.ok a, s) => next a s
      | (.error stop, s) => (.error stop, s) := rfl

theorem bind_return (act : Act W E V α) : (act >>= pure) = act := by
  funext s
  rw [bind_apply]
  obtain ⟨result, after⟩ := act s
  cases result <;> rfl

theorem bind_bind {γ : Type} (act : Act W E V α) (next : α → Act W E V β) (last : β → Act W E V γ) :
    act >>= next >>= last = act >>= fun a => next a >>= last := by
  funext s
  simp only [bind_apply]
  obtain ⟨result, after⟩ := act s
  cases result <;> rfl

instance : LawfulMonad (Act W E V) :=
  LawfulMonad.mk' _ bind_return (fun _ _ => rfl) bind_bind

/-- An act that leaves the label alone adds nothing before what follows it. -/
theorem Adds.bind {act : Act W E V α} (hact : act.Keeps Eq) {next : α → Act W E V β}
    {P : Except (Stop E) β → List V → Prop} (hnext : ∀ a, (next a).Adds P)
    (hstop : ∀ stop, P (.error stop) []) : (act >>= next).Adds P := by
  intro s
  have hlabel := hact s
  rw [bind_apply]
  generalize act s = outcome at hlabel ⊢
  obtain ⟨result, after⟩ := outcome
  dsimp only at hlabel
  cases result with
  | error stop => exact ⟨[], by rw [Label.append_nil]; exact hlabel.symm, hstop stop⟩
  | ok a =>
    obtain ⟨added, hadded, hresult⟩ := hnext a after
    exact ⟨added, by rw [hlabel]; exact hadded, hresult⟩

theorem AllOrNone.bind {act : Act W E V α} (hact : act.Keeps Eq) {next : α → Act W E V β} {n : Nat}
    (hnext : ∀ a, (next a).AllOrNone n) : (act >>= next).AllOrNone n :=
  Adds.bind hact hnext fun _ => ⟨nofun, fun _ _ => rfl⟩

theorem allOrNone_of_keeps {act : Act W E V α} (h : act.Keeps Eq) : act.AllOrNone 0 :=
  fun s => ⟨[], by rw [Label.append_nil]; exact (h s).symm, fun _ _ => rfl, fun _ _ => rfl⟩

end Act

namespace Objects

open Act

theorem joined_append (pieces more : List (Act W E V Text)) :
    joined (pieces ++ more) = (do
      let s ← joined pieces
      let t ← joined more
      return s ++ t) := by
  induction pieces with
  | nil => simp [joined]
  | cons piece rest ih =>
    simp only [List.cons_append, joined, ih, bind_assoc, pure_bind, List.append_assoc]

/-- The relation is kept by every question, by doing nothing, and by two steps in a row. -/
structure Respects (O : Objects W E V) (R : Label V → Label V → Prop) : Prop where
  refl : ∀ l, R l l
  trans : ∀ {l l' l''}, R l l' → R l' l'' → R l l''
  ask : ∀ q s, R s.label (O.ask q s).2.label

/-- What an object does when it is asked adds to the label at most. -/
def Extending (O : Objects W E V) : Prop :=
  ∀ (q : Question V) (s : Scene W V), s.label.Extends (O.ask q s).2.label

/-- What an object does when it is asked has nothing to do with the label. -/
def Apart (O : Objects W E V) : Prop :=
  ∀ (q : Question V) (s : Scene W V), (O.ask q s).2.label = s.label

variable {O : Objects W E V} {R : Label V → Label V → Prop}

theorem Extending.respects (h : O.Extending) : O.Respects Label.Extends :=
  ⟨Label.Extends.refl, Label.Extends.trans, h⟩

theorem Apart.respects (h : O.Apart) : O.Respects Eq :=
  ⟨fun _ => rfl, Eq.trans, fun q s => (h q s).symm⟩

theorem Apart.extending (h : O.Apart) : O.Extending := fun q s => by
  rw [h q s]
  exact Label.Extends.refl _

namespace Respects

theorem pure (h : O.Respects R) (a : α) : (pure a : Act W E V α).Keeps R :=
  fun s => h.refl s.label

theorem stop (h : O.Respects R) (reason : Stop E) : (Act.stop reason : Act W E V α).Keeps R :=
  fun s => h.refl s.label

theorem label (h : O.Respects R) : (Act.label : Act W E V (Label V)).Keeps R :=
  fun s => h.refl s.label

theorem bind (h : O.Respects R) {act : Act W E V α} (hact : act.Keeps R)
    {next : α → Act W E V β} (hnext : ∀ a, (next a).Keeps R) : (act >>= next).Keeps R := by
  intro s
  have hlabel := hact s
  rw [bind_apply]
  generalize act s = outcome at hlabel ⊢
  obtain ⟨result, after⟩ := outcome
  cases result with
  | error stop => exact hlabel
  | ok a => exact h.trans hlabel (hnext a after)

theorem question (h : O.Respects R) (q : Question V) : (O.question q).Keeps R := by
  intro s
  have hask := h.ask q s
  unfold Objects.question
  generalize O.ask q s = outcome at hask ⊢
  obtain ⟨result, after⟩ := outcome
  cases result <;> exact hask

/-! ### Texts -/

theorem joined (h : O.Respects R) {pieces : List (Act W E V Text)}
    (hpieces : ∀ piece ∈ pieces, piece.Keeps R) : (joined pieces).Keeps R := by
  induction pieces with
  | nil => exact h.pure _
  | cons piece rest ih =>
    rw [List.forall_mem_cons] at hpieces
    exact h.bind hpieces.1 fun s => h.bind (ih hpieces.2) fun _ => h.pure _

theorem literal (h : O.Respects R) (s : String) : (literal s : Act W E V Text).Keeps R :=
  h.pure _

theorem text (h : O.Respects R) (v : V) : (O.text v).Keeps R :=
  h.question _

theorem token (h : O.Respects R) (table : List String) (fallback : String) (v : V) :
    (O.token table fallback v).Keeps R :=
  h.bind (h.question _) fun _ => h.pure _

theorem yesNo (h : O.Respects R) (v : V) : (O.yesNo v).Keeps R :=
  h.bind (h.question _) fun _ => h.pure _

theorem textPosition (h : O.Respects R) (v : V) : (O.textPosition v).Keeps R :=
  h.bind (h.question _) fun _ => h.pure _

theorem justification (h : O.Respects R) (v : V) : (O.justification v).Keeps R := by
  refine h.bind (h.question _) fun centred => ?_
  cases centred with
  | true => exact h.bind h.label fun l => h.bind (h.text _) fun _ => h.pure _
  | false => exact h.token _ _ v

theorem fontOrientation (h : O.Respects R) (v : V) : (O.fontOrientation v).Keeps R :=
  h.bind (h.token _ _ v) fun _ => h.pure _

theorem codeText (h : O.Respects R) (data : V) : (O.codeText data).Keeps R :=
  h.bind (h.question _) h.text

theorem origin (h : O.Respects R) (x y : V) : ∀ piece ∈ O.origin x y, piece.Keeps R := by
  simp [Objects.origin, h.literal, h.text]

theorem fieldData (h : O.Respects R) (v : V) : ∀ piece ∈ O.fieldData v, piece.Keeps R := by
  simp [Objects.fieldData, h.literal, h.text]

theorem boxField (h : O.Respects R) (width height thickness color roundness : V) :
    ∀ piece ∈ O.boxField width height thickness color roundness, piece.Keeps R := by
  simp [Objects.boxField, h.literal, h.text, h.token, h.question]

theorem underline (h : O.Respects R) (length c1 c2 : V) :
    ∀ piece ∈ O.underline length c1 c2, piece.Keeps R := by
  simp [Objects.underline, h.literal, h.text]

theorem barcodeField (h : O.Respects R) (a : Parameter → V) :
    ∀ piece ∈ O.barcodeField a, piece.Keeps R := by
  simp [Objects.barcodeField, h.literal, h.text, h.token, h.yesNo, h.textPosition]

theorem closing (h : O.Respects R) :
    ∀ piece ∈ (closing : List (Act W E V Text)), piece.Keeps R := by
  simp [Objects.closing, h.literal]

theorem textField (h : O.Respects R) (orientation justification x y v : V) :
    (O.textField orientation justification x y v).Keeps R := by
  refine h.bind (h.question _) fun escaped => h.bind (h.justification _) fun block =>
    h.bind (h.fontOrientation _) fun font => h.bind (h.question _) fun centred => h.joined ?_
  simp [h.literal, h.text, h.pure]

theorem isBlank (h : O.Respects R) (v : V) : (O.isBlank v).Keeps R := by
  unfold Objects.isBlank
  split
  · exact h.pure _
  · exact h.bind (h.question _) fun _ => h.bind (h.question _) fun _ => h.pure _

theorem renderFrom (h : O.Respects R) (separator : Text) (passes n : Nat) :
    (O.renderFrom separator passes n).Keeps R := by
  induction passes generalizing n with
  | zero => exact h.stop _
  | succ passes ih =>
    refine h.bind h.label fun l => ?_
    split
    · exact h.pure _
    · exact h.bind (h.text _) fun s => h.bind (ih (n + 1)) fun _ => h.pure _

theorem render (h : O.Respects R) (passes : Nat) : (O.render passes).Keeps R :=
  h.bind h.label fun _ => h.bind (h.question _) fun _ => h.renderFrom _ _ _

theorem description (h : O.Respects R) : O.description.Keeps R :=
  h.bind h.label fun _ => h.bind (h.question _) fun _ => h.bind (h.question _) fun _ =>
    h.bind (h.question _) fun _ => h.bind h.label fun _ => h.pure _

end Respects

/-! ### Operations extend the label -/

theorem write_extends (added : List V) :
    (Act.write added : Act W E V Unit).Keeps Label.Extends :=
  fun s => s.label.extends_append added

theorem done_extends (h : O.Extending) (fragments : List V) :
    (done fragments : Act W E V (Returned V)).Keeps Label.Extends :=
  h.respects.bind (write_extends _) fun _ => h.respects.pure _

theorem one_extends (h : O.Extending) {text : Act W E V Text} (htext : text.Keeps Label.Extends) :
    (O.one text).Keeps Label.Extends :=
  h.respects.bind htext fun _ => h.respects.bind (write_extends _) fun _ => h.respects.pure _

/-- One fragment is added if its text can be written, else none. -/
theorem one_allOrNone {text : Act W E V Text} (htext : text.Keeps Eq) :
    (O.one text).AllOrNone 1 :=
  .bind htext fun s _ => ⟨[O.own (.text s)], rfl, fun _ _ => rfl, nofun⟩

theorem done_allOrNone (fragments : List V) :
    (done fragments : Act W E V (Returned V)).AllOrNone fragments.length :=
  fun _ => ⟨fragments, rfl, fun _ _ => rfl, nofun⟩

/-- An operation with a fixed number of fragments adds what is there already, or one text. -/
theorem operate_cases (O : Objects W E V) (passes : Nat) (a : Parameter → V) {op : Operation}
    {n : Nat} (hn : op.fragmentCount? = some n) :
    (∃ fragments : List V, fragments.length = n ∧ O.operate passes a op = done fragments) ∨
    (n = 1 ∧ ∃ text, O.operate passes a op = O.one text ∧
      ∀ R, O.Respects R → text.Keeps R) := by
  have hone (pieces : List (Act W E V Text))
      (hpieces : ∀ R, O.Respects R → ∀ piece ∈ pieces, piece.Keeps R) :
      ∃ text, O.one (joined pieces) = O.one text ∧ ∀ R, O.Respects R → text.Keeps R :=
    ⟨joined pieces, rfl, fun R h => h.joined (hpieces R h)⟩
  cases op with
  | writeTextAtWithWrap => cases hn
  | start | finish | raw | reversePrint | endField | addVoidMessage =>
    cases hn
    refine .inl ⟨_, ?_, rfl⟩
    rfl
  | writeTextAt =>
    exact .inr ⟨(Option.some.inj hn).symm, _, rfl, fun R h => h.textField _ _ _ _ _⟩
  | drawBoxAt | drawHorizontalLineAt | drawVerticalLineAt =>
    refine .inr ⟨(Option.some.inj hn).symm, hone _ fun R h => ?_⟩
    exact List.forall_mem_append.mpr
      ⟨List.forall_mem_append.mpr ⟨h.origin _ _, h.boxField _ _ _ _ _⟩, h.closing⟩
  | drawBox =>
    exact .inr ⟨(Option.some.inj hn).symm, hone _ fun R h => h.boxField _ _ _ _ _⟩
  | setPosition => exact .inr ⟨(Option.some.inj hn).symm, hone _ fun R h => h.origin _ _⟩
  | data | writeText => exact .inr ⟨(Option.some.inj hn).symm, hone _ fun R h => h.fieldData _⟩
  | writeUnderline =>
    refine .inr ⟨(Option.some.inj hn).symm, hone _ fun R h => ?_⟩
    exact List.forall_mem_append.mpr
      ⟨List.forall_mem_append.mpr ⟨h.origin _ _, h.underline _ _ _⟩, h.closing⟩
  | barcode =>
    refine .inr ⟨(Option.some.inj hn).symm, hone _ fun R h => ?_⟩
    simp only [List.forall_mem_append]
    exact ⟨⟨⟨h.origin _ _, h.barcodeField _⟩, h.fieldData _⟩, h.closing⟩
  | simpleBarcode =>
    refine .inr ⟨(Option.some.inj hn).symm, hone _ fun R h => ?_⟩
    simp only [List.forall_mem_append, List.forall_mem_cons]
    exact ⟨⟨h.origin _ _, h.literal _, h.fieldData _⟩, h.closing⟩
  | addQrCodeAt =>
    refine .inr ⟨(Option.some.inj hn).symm, hone _ fun R h => ?_⟩
    simp only [List.forall_mem_append, List.forall_mem_cons]
    exact ⟨⟨⟨h.literal _, h.origin _ _⟩, h.literal _, h.codeText _, nofun⟩, h.closing⟩
  | setFont | setFontSize | barcodeFormat =>
    refine .inr ⟨(Option.some.inj hn).symm, hone _ fun R h => ?_⟩
    simp [h.literal, h.text]

/-! ### Wrapped texts -/

theorem writeLine_allOrNone (h : O.Apart) (a : Parameter → V) (y line : V) :
    (O.writeLine a y line).AllOrNone 1 :=
  one_allOrNone (h.respects.textField _ _ _ _ _)

theorem writeLine_extends (h : O.Extending) (a : Parameter → V) (y line : V) :
    (O.writeLine a y line).Keeps Label.Extends :=
  one_extends h (h.respects.textField _ _ _ _ _)

/-- Of the lines that a call returns with, all but so many were written by the act, one fragment
each. -/
def AddsLines (before : Nat) (act : Act W E V (Returned V)) : Prop :=
  act.Adds fun result added => ∀ returned, result = .ok returned →
    ∃ y lines, returned = .wrapped y lines ∧ lines.length = before + added.length

namespace AddsLines

variable {before : Nat} {next : α → Act W E V (Returned V)}

theorem returned {y : V} {lines : List (List V)} (h : lines.length = before) :
    AddsLines before (pure (.wrapped y lines) : Act W E V (Returned V)) := fun s =>
  ⟨[], s.label.append_nil.symm, fun _ hreturned => by
    cases hreturned
    exact ⟨y, lines, rfl, h⟩⟩

theorem stop (reason : Stop E) : AddsLines before (Act.stop reason : Act W E V (Returned V)) :=
  fun s => ⟨[], s.label.append_nil.symm, nofun⟩

theorem bind {act : Act W E V α} (hact : act.Keeps Eq) (hnext : ∀ a, AddsLines before (next a)) :
    AddsLines before (act >>= next) :=
  Adds.bind hact hnext fun _ => nofun

/-- A line that is written counts. -/
theorem line {act : Act W E V α} (hact : act.AllOrNone 1)
    (hnext : ∀ a, AddsLines (before + 1) (next a)) : AddsLines before (act >>= next) := by
  intro s
  obtain ⟨written, hlabel, hall, -⟩ := hact s
  rw [bind_apply]
  generalize act s = outcome at hlabel hall ⊢
  obtain ⟨result, after⟩ := outcome
  cases result with
  | error reason => exact ⟨written, hlabel, nofun⟩
  | ok a =>
    obtain ⟨added, hadded, hlines⟩ := hnext a after
    dsimp only at hlabel hall
    refine ⟨written ++ added, ?_, fun returned hreturned => ?_⟩
    · rw [← Label.append_append, ← hlabel]
      exact hadded
    · obtain ⟨y, lines, hwrapped, hcount⟩ := hlines returned hreturned
      refine ⟨y, lines, hwrapped, ?_⟩
      rw [hcount, List.length_append, hall a rfl]
      omega

end AddsLines

theorem moveDown_addsLines (h : O.Apart) (a : Parameter → V) (words : V) (f : Filling V)
    {goOn : V → Act W E V (Returned V)} (hgoOn : ∀ y, AddsLines (f.lines.length + 1) (goOn y)) :
    AddsLines f.lines.length (O.moveDown a words f goOn) := by
  have hask (q : Question V) := h.respects.question q
  refine .line (writeLine_allOrNone h a _ _) fun _ => .bind (hask _) fun y =>
    .bind (hask _) fun low => ?_
  cases low with
  | true =>
    refine .bind (hask _) fun _ => .bind (hask _) fun _ => .bind (hask _) fun _ => .returned ?_
    simp [Filling.allLines]
  | false => exact hgoOn y

/-- Whatever the objects answer, the loop of a wrapped text adds a fragment for each of its
lines. -/
theorem fill_addsLines (h : O.Apart) (a : Parameter → V) (words : V) (passes : Nat)
    (f : Filling V) : AddsLines f.lines.length (O.fill a words passes f) := by
  induction passes generalizing f with
  | zero => exact .stop _
  | succ passes ih =>
    have hask (q : Question V) := h.respects.question q
    have hall : f.allLines.length = f.lines.length + 1 := by simp [Filling.allLines]
    rw [fill]
    refine .bind (hask _) fun count => ?_
    split
    · refine .bind (hask _) fun word => .bind (hask _) fun length => .bind (hask _) fun fits => ?_
      refine .bind ?_ fun takes => ?_
      · cases fits with
        | true => exact h.respects.pure _
        | false => exact h.respects.bind (hask _) fun _ => h.respects.pure _
      · cases takes with
        | true => exact .bind (hask _) fun spaced => .bind (hask _) fun line => ih _
        | false => exact moveDown_addsLines h a words f fun y => hall ▸ ih (.start O y _ _)
    · exact .line (writeLine_allOrNone h a _ _) fun _ => .returned hall

theorem moveDown_extends (h : O.Extending) (a : Parameter → V) (words : V) (f : Filling V)
    {goOn : V → Act W E V (Returned V)} (hgoOn : ∀ y, (goOn y).Keeps Label.Extends) :
    (O.moveDown a words f goOn).Keeps Label.Extends := by
  have hR := h.respects
  have hask (q : Question V) := hR.question q
  refine hR.bind (writeLine_extends h a _ _) fun _ => hR.bind (hask _) fun y =>
    hR.bind (hask _) fun low => ?_
  cases low with
  | true =>
    exact hR.bind (hask _) fun _ => hR.bind (hask _) fun _ => hR.bind (hask _) fun _ => hR.pure _
  | false => exact hgoOn y

theorem fill_extends (h : O.Extending) (a : Parameter → V) (words : V) (passes : Nat)
    (f : Filling V) : (O.fill a words passes f).Keeps Label.Extends := by
  have hR := h.respects
  induction passes generalizing f with
  | zero => exact hR.stop _
  | succ passes ih =>
    have hask (q : Question V) := hR.question q
    rw [fill]
    refine hR.bind (hask _) fun count => ?_
    split
    · refine hR.bind (hask _) fun word => hR.bind (hask _) fun length =>
        hR.bind (hask _) fun fits => ?_
      refine hR.bind ?_ fun takes => ?_
      · cases fits with
        | true => exact hR.pure _
        | false => exact hR.bind (hask _) fun _ => hR.pure _
      · cases takes with
        | true => exact hR.bind (hask _) fun spaced => hR.bind (hask _) fun line => ih _
        | false => exact moveDown_extends h a words f fun y => ih _
    · exact hR.bind (writeLine_extends h a _ _) fun _ => hR.pure _

theorem wrapped_extends (h : O.Extending) (passes : Nat) (a : Parameter → V) :
    (O.wrapped passes a).Keeps Label.Extends := by
  have hR := h.respects
  refine hR.bind (hR.isBlank _) fun blank => ?_
  cases blank with
  | true => exact hR.pure _
  | false =>
    refine hR.bind (hR.question _) fun length => hR.bind (hR.question _) fun fits => ?_
    cases fits with
    | true => exact hR.bind (writeLine_extends h a _ _) fun _ => hR.pure _
    | false => exact hR.bind (hR.question _) fun words => fill_extends h a words passes _

theorem wrapped_addsLines (h : O.Apart) (passes : Nat) (a : Parameter → V) :
    AddsLines 0 (O.wrapped passes a) := by
  have hR := h.respects
  refine .bind (hR.isBlank _) fun blank => ?_
  cases blank with
  | true => exact .returned rfl
  | false =>
    refine .bind (hR.question _) fun length => .bind (hR.question _) fun fits => ?_
    cases fits with
    | true => exact .line (writeLine_allOrNone h a _ _) fun _ => .returned rfl
    | false => exact .bind (hR.question _) fun words => fill_addsLines h a words passes _

/-! ### Calls -/

theorem operate_extends (h : O.Extending) (passes : Nat) (a : Parameter → V) (op : Operation) :
    (O.operate passes a op).Keeps Label.Extends := by
  cases hn : op.fragmentCount? with
  | none =>
    obtain rfl := Operation.eq_wrap_of_fragmentCount? hn
    exact wrapped_extends h passes a
  | some n =>
    rcases O.operate_cases passes a hn with ⟨fragments, -, heq⟩ | ⟨-, text, heq, htext⟩
    · rw [heq]
      exact done_extends h fragments
    · rw [heq]
      exact one_extends h (htext _ h.respects)

theorem operate_allOrNone (h : O.Apart) (passes : Nat) (a : Parameter → V) {op : Operation}
    {n : Nat} (hn : op.fragmentCount? = some n) : (O.operate passes a op).AllOrNone n := by
  rcases O.operate_cases passes a hn with ⟨fragments, rfl, heq⟩ | ⟨rfl, text, heq, htext⟩
  · rw [heq]
    exact done_allOrNone fragments
  · rw [heq]
    exact one_allOrNone (htext _ h.respects)

/-- What is asked about a label, and a call that does not fit, leave it as it is. -/
theorem call_query_respects (h : O.Respects R) {m : Method} (hm : m.fragmentCount? = some 0)
    (passes : Nat) (given : List V) (named : List (Text × V)) :
    (O.call passes m given named).Keeps R := by
  cases m with
  | operation op => cases op <;> cases hm
  | render =>
    rw [call]
    split
    · exact h.bind (h.render passes) fun _ => h.pure _
    · exact h.stop _
  | text => exact h.bind (h.render passes) fun _ => h.pure _
  | description => exact h.bind h.description fun _ => h.pure _
  | settings => exact h.bind h.label fun _ => h.pure _
  | dots =>
    rw [call]
    split
    · exact h.stop _
    · exact h.bind h.label fun _ => h.bind (h.question _) fun _ => h.pure _

theorem call_extends (h : O.Extending) (passes : Nat) (m : Method) (given : List V)
    (named : List (Text × V)) : (O.call passes m given named).Keeps Label.Extends := by
  cases m with
  | operation op =>
    rw [call]
    split
    · exact h.respects.stop _
    · exact operate_extends h passes _ op
  | _ => exact call_query_respects h.respects rfl passes given named

/-- A call of something that a label can be asked for, and what happens in the world before it. -/
structure Turn (W V : Type) where
  meanwhile : Scene W V → W := Scene.world
  method : Method
  given : List V := []
  named : List (Text × V) := []
  /-- How many passes of its loop are looked at. -/
  passes : Nat

/-- What a turn may add to a label, given how it ends: all of its fragments, or, if it fails, none
of them.  A wrapped text that returns has added one for each of its lines. -/
def Turn.Adds (t : Turn W V) (result : Except (Stop E) (Returned V)) (added : List V) : Prop :=
  match t.method.fragmentCount? with
  | some n =>
    (∀ returned, result = .ok returned → added.length = n) ∧
    (∀ stop, result = .error stop → added = [])
  | none => ∀ returned, result = .ok returned →
    ∃ y lines, returned = .wrapped y lines ∧ added.length = lines.length

theorem call_adds (h : O.Apart) (t : Turn W V) :
    (O.call t.passes t.method t.given t.named).Adds t.Adds := by
  cases hn : t.method.fragmentCount? with
  | some n =>
    suffices hall : (O.call t.passes t.method t.given t.named).AllOrNone n by
      intro s
      obtain ⟨added, hlabel, hresult⟩ := hall s
      refine ⟨added, hlabel, ?_⟩
      rw [Turn.Adds, hn]
      exact hresult
    generalize t.method = m at hn ⊢
    cases m with
    | operation op =>
      rw [call]
      split
      · exact fun s => ⟨[], s.label.append_nil.symm, nofun, fun _ _ => rfl⟩
      · exact operate_allOrNone h t.passes _ hn
    | _ =>
      cases hn
      exact allOrNone_of_keeps (call_query_respects h.respects rfl t.passes t.given t.named)
  | none =>
    have hlines : AddsLines 0 (O.call t.passes t.method t.given t.named) := by
      generalize t.method = m at hn ⊢
      cases m with
      | operation op =>
        obtain rfl := Operation.eq_wrap_of_fragmentCount? hn
        rw [call]
        split
        · exact .stop _
        · exact wrapped_addsLines h t.passes _
      | _ => cases hn
    intro s
    obtain ⟨added, hlabel, hresult⟩ := hlines s
    refine ⟨added, hlabel, ?_⟩
    rw [Turn.Adds, hn]
    intro returned hreturned
    obtain ⟨y, lines, hwrapped, hcount⟩ := hresult returned hreturned
    exact ⟨y, lines, hwrapped, by omega⟩

/-! ### Turns one after another -/

section Turns

variable (O)

/-- How a turn ends, and the scene behind it. -/
def run (s : Scene W V) (t : Turn W V) : Except (Stop E) (Returned V) × Scene W V :=
  O.call t.passes t.method t.given t.named { s with world := t.meanwhile s }

def after (s : Scene W V) (t : Turn W V) : Scene W V :=
  (O.run s t).2

def afterAll (s : Scene W V) (turns : List (Turn W V)) : Scene W V :=
  turns.foldl O.after s

end Turns

theorem after_extends (h : O.Extending) (s : Scene W V) (t : Turn W V) :
    s.label.Extends (O.after s t).label :=
  call_extends h t.passes t.method t.given t.named { s with world := t.meanwhile s }

theorem afterAll_extends (h : O.Extending) (s : Scene W V) (turns : List (Turn W V)) :
    s.label.Extends (O.afterAll s turns).label := by
  induction turns generalizing s with
  | nil => exact .refl _
  | cons t rest ih => exact (after_extends h s t).trans (ih (O.after s t))

/-! ### Texts among the objects -/

/-- Writing the object gives always the same text, and changes nothing. -/
def IsText (O : Objects W E V) (v : V) (t : Text) : Prop :=
  ∀ s, O.ask (.text v) s = (.ok t, s)

def IsFlag (O : Objects W E V) (v : V) (b : Bool) : Prop :=
  ∀ s, O.ask (.truth v) s = (.ok b, s)

/-- The label renders to the text, whatever the world is. -/
def Renders (O : Objects W E V) (l : Label V) (t : Text) : Prop :=
  ∀ s passes, s.label = l → l.fragments.length < passes → O.render passes s = (.ok t, s)

theorem renderFrom_of_texts {texts : V → Text} (separator : Text) {s : Scene W V}
    (h : ∀ v ∈ s.label.fragments, O.IsText v (texts v)) {passes n : Nat}
    (hpasses : s.label.fragments.length - n < passes) :
    O.renderFrom separator passes n s =
      (.ok ((s.label.fragments.drop n).flatMap fun v => texts v ++ separator), s) := by
  induction passes generalizing n with
  | zero => omega
  | succ passes ih =>
    rw [renderFrom, bind_apply]
    dsimp only [Act.label]
    cases hget : s.label.fragments[n]? with
    | none =>
      rw [List.drop_eq_nil_of_le (List.getElem?_eq_none_iff.mp hget)]
      rfl
    | some v =>
      obtain ⟨hlt, hv⟩ := List.getElem?_eq_some_iff.mp hget
      have htext : O.text v s = (.ok (texts v), s) := by
        rw [text, question, h v (hv ▸ List.getElem_mem hlt)]
      have hrest : O.renderFrom separator passes (n + 1) s = _ := ih (by omega)
      dsimp only
      rw [bind_apply, htext]
      dsimp only
      rw [bind_apply, hrest, List.drop_eq_getElem_cons hlt, hv, List.flatMap_cons]
      rfl

theorem renders_of_texts {texts : V → Text} {l : Label V} {quiet : Bool}
    (hquiet : O.IsFlag l.settings.suppressSeparator quiet)
    (h : ∀ v ∈ l.fragments, O.IsText v (texts v)) :
    O.Renders l (l.fragments.flatMap fun v => texts v ++ separator quiet) := by
  rintro s passes rfl hpasses
  have hflag : O.question (.truth s.label.settings.suppressSeparator) s = (.ok quiet, s) := by
    rw [question, hquiet]
  have hfrom : O.renderFrom (separator quiet) passes 0 s = _ :=
    renderFrom_of_texts (separator quiet) h (by omega)
  rw [render, bind_apply]
  dsimp only [Act.label]
  rw [bind_apply, hflag]
  exact hfrom

end Objects

namespace Store

open Objects

/-- Asking values and shared lists has nothing to do with any label. -/
theorem objects_apart : objects.Apart := by
  intro q s
  cases q with
  | extended v v' =>
    cases v with
    | value v => rfl
    | shared n =>
      unfold objects ask
      dsimp only
      split <;> rfl
  | _ => rfl

def isText : Handle → Bool
  | .value (.text _) => true
  | _ => false

theorem texts_of_isText {fragments : List Handle} (h : fragments.all isText = true) :
    ∀ v ∈ fragments, ∃ t, objects.IsText v t := by
  rw [List.all_eq_true] at h
  intro v hv
  have htext := h v hv
  cases v with
  | shared n => cases htext
  | value v =>
    cases v with
    | text t => exact ⟨t, fun _ => rfl⟩
    | _ => cases htext

/-- A label without fragments, and a list that is held elsewhere. -/
def listScene : Scene Store Handle where
  world := { lists := [[.integer 1]] }
  label := { settings := ⟨.value (.integer 203), .value (.integer 710), .value (.flag true)⟩ }

def startTurn : Turn Store Handle where
  method := .operation .start
  passes := 0

def finishTurn : Turn Store Handle where
  method := .operation .finish
  passes := 0

/-- Three lines, the first of them at the list. -/
def linesTurn : Turn Store Handle where
  method := .operation .writeTextAtWithWrap
  given := [.value (.integer 0), .shared 0, .value (.text "a b c"), .value (.integer 1),
    .value (.list [.integer 5]), .value (.list [.integer 9])]
  passes := 6

abbrev startScene : Scene Store Handle :=
  objects.afterAll listScene [startTurn]

abbrev linesScene : Scene Store Handle :=
  objects.after startScene linesTurn

abbrev finishScene : Scene Store Handle :=
  objects.afterAll linesScene [finishTurn]

-- A list among the fragments stays in its place, but is shown with what was put into it since.
example :
    let rawTurn : Turn Store Handle :=
      { method := .operation .raw, given := [.shared 0], passes := 0 }
    let early := objects.after listScene rawTurn
    let late := objects.after early linesTurn
    (objects.render 2 early).1 = .ok "[1]" ∧
    (objects.render 5 late).1 = .ok ("[1, 5, 5]^FO0,[1],0^AON^FH^FDa_20^FS" ++
      "^FO0,[1, 5],0^AON^FH^FDb_20^FS^FO0,[1, 5, 5],0^AON^FH^FDc_20^FS" : String) := by
  decide +kernel

end Store

end ThermalLabel
