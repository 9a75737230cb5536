import Mathlib.Algebra.GroupWithZero.Nat
import ThermalLabel.Label.Binding
import ThermalLabel.Proofs.Label.Emission
import ThermalLabel.Proofs.Label.Filling
import ThermalLabel.Proofs.Value.Unbroken

/-!
# Blocks

The width of a label shows in its commands only as the width of a block, and a line of text has a
block if it is centred.  A `Form` is a text with places for blocks that are as wide as the label;
what a call emits is a list of forms, the same for every width, filled with the width.
-/
namespace ThermalLabel

inductive Segment where
  | fixed (s : Text)
  | block
  deriving DecidableEq

def Segment.write (width : Text) : Segment → Text
  | fixed s => s
  | block => "^FB" ++ width ++ ",1,0,C,0"

/-- A text with places for blocks. -/
abbrev Form := List Segment

namespace Form

def fill (width : Text) (form : Form) : Text :=
  form.flatMap (Segment.write width)

def blocks (form : Form) : Nat :=
  form.count .block

@[simp] theorem blocks_append (a b : Form) : blocks (a ++ b) = a.blocks + b.blocks :=
  List.count_append

theorem fill_append (width : Text) (a b : Form) :
    fill width (a ++ b) = a.fill width ++ b.fill width :=
  List.flatMap_append

end Form

/-! ### Commands with blocks -/

/-- A part of a command, or a block. -/
inductive Slot where
  | part (p : Part)
  | block

namespace Slot

def toPart (width : Text) : Slot → Part
  | part p => p
  | block => .literal (Segment.write width .block)

def isBlock : Slot → Bool
  | part _ => false
  | block => true

end Slot

/-- The form of a command; the first part that cannot be written decides the fault. -/
def commandForm : List Slot → Except Fault Form
  | [] => .ok []
  | .part p :: rest => do
    let s ← p.write
    return .fixed s :: (← commandForm rest)
  | .block :: rest => do
    return .block :: (← commandForm rest)

theorem command_eq_form (width : Text) (slots : List Slot) :
    command (slots.map (Slot.toPart width)) = (commandForm slots).map (Form.fill width) := by
  induction slots with
  | nil => rfl
  | cons slot rest ih =>
    cases slot with
    | part p =>
      rw [List.map_cons, command, ih, commandForm, Slot.toPart]
      cases p.write with
      | error f => rfl
      | ok s => cases commandForm rest <;> rfl
    | block =>
      rw [List.map_cons, command, ih, commandForm]
      cases commandForm rest <;> rfl

theorem blocks_of_commandForm {slots : List Slot} {form : Form}
    (h : commandForm slots = .ok form) : form.blocks = slots.countP Slot.isBlock := by
  induction slots generalizing form with
  | nil =>
    cases h
    rfl
  | cons slot rest ih =>
    cases slot with
    | part p =>
      obtain ⟨s, -, h⟩ := exists_of_bind_eq_ok h
      obtain ⟨others, hrest, h⟩ := exists_of_bind_eq_ok h
      cases h
      simpa [Form.blocks, Slot.isBlock] using ih hrest
    | block =>
      obtain ⟨others, hrest, h⟩ := exists_of_bind_eq_ok h
      cases h
      have hcount : Slot.isBlock .block = true := rfl
      simpa [Form.blocks, List.countP_cons, hcount] using ih hrest

variable {a : Arguments} {config : Config} {width : Text} {n : Int}

/-- The form of a text at a position, with a block if it is centred. -/
def textForm (a : Arguments) (y : Value) (s : Text) : Except Fault Form :=
  if a.isCentred then
    commandForm [.part "^FO", .part (Value.integer 0), .part ",", .part y, .block,
      .part (Token.fontOrientation (a .orientation)), .part "^FH^FD", .part (Escape.encode s),
      .part fieldEnd]
  else
    commandForm [.part "^FO", .part (a .x), .part ",", .part y,
      .part (Token.pick Token.justifications "" (a .justification)),
      .part (Token.fontOrientation (a .orientation)), .part "^FH^FD", .part (Escape.encode s),
      .part fieldEnd]

theorem textField_eq_form (hj : (a .justification).whole? = some n)
    (hw : a.isCentred = true → config.maxWidth.toText = .ok width) (y : Value) (s : Text) :
    textField config (a .orientation) (a .justification) (a .x) y s =
      (textForm a y s).map (Form.fill width) := by
  rw [textField_eq hj, textForm]
  split
  · rename_i hc
    rw [hw hc, ← command_eq_form]
    rfl
  · rw [← command_eq_form]
    rfl

/-- A text that can be written has a form, and the width can be written if it has a block. -/
theorem exists_form_of_textField (hj : (a .justification).whole? = some n) {y : Value} {s t : Text}
    (h : textField config (a .orientation) (a .justification) (a .x) y s = .ok t) :
    ∃ form width, textForm a y s = .ok form ∧
      (a.isCentred = true → config.maxWidth.toText = .ok width) := by
  obtain ⟨width, hw⟩ : ∃ width, a.isCentred = true → config.maxWidth.toText = .ok width := by
    by_cases hc : a.isCentred = true
    · rw [textField_eq hj, if_pos hc] at h
      obtain ⟨width, hwidth, -⟩ := exists_of_bind_eq_ok h
      exact ⟨width, fun _ => hwidth⟩
    · exact ⟨[], fun h => absurd h hc⟩
  rw [textField_eq_form hj hw] at h
  obtain ⟨form, hform, -⟩ := exists_of_map_eq_ok h
  exact ⟨form, width, hform, hw⟩

theorem blocks_of_textForm {y : Value} {s : Text} {form : Form} (h : textForm a y s = .ok form) :
    form.blocks = if a.isCentred then 1 else 0 := by
  unfold textForm at h
  split at h
  · rename_i hc
    rw [blocks_of_commandForm h, if_pos hc]
    rfl
  · rename_i hc
    rw [blocks_of_commandForm h, if_neg hc]
    rfl

/-! ### Centred lines -/

/-- The lines that a call emits with a block. -/
def Call.centredLines (call : Call) : Nat :=
  if call.arguments.isCentred then
    match call.operation with
    | .writeTextAt => 1
    | .writeTextAtWithWrap => call.arguments.placedLines.length
    | _ => 0
  else 0

theorem Wrap.blank_of_lineTexts {wrap : Int} {s : Text} (h : lineTexts wrap s = []) :
    Text.blank s = true := by
  unfold lineTexts at h
  split at h
  · assumption
  · split at h
    · simp at h
    · exact absurd (List.map_eq_nil_iff.mp h) (lines_words_ne_nil _ s)

/-- A text that places no line is blank. -/
theorem blank_of_placedLines {s : Text} (hs : a .value = .text s) (h : a.placedLines = []) :
    Text.blank s = true := by
  simp only [Arguments.placedLines, hs, List.zip_eq_nil_iff] at h
  have hnone : Wrap.lineTexts (a.whole .wrap) s = [] := by
    rcases h with hpositions | hlines
    · cases hlines : Wrap.lineTexts (a.whole .wrap) s with
      | nil => rfl
      | cons line rest => simp [hlines, Wrap.positions] at hpositions
    · exact hlines
  exact Wrap.blank_of_lineTexts hnone

theorem emit_of_no_lines (hfit : Operation.Fits .writeTextAtWithWrap a) (h : a.placedLines = [])
    (config : Config) : Operation.emit config a .writeTextAtWithWrap =
      { fragments := [], outcome := .ok (.endingY (a .y)) } := by
  have hvalue := hfit.holds .value .optionalText (by decide)
  rcases hvalue with hnull | ⟨s, hs⟩
  · simp only [Operation.emit, hnull]
  · simp only [Operation.emit, hs, Wrap.text, blank_of_placedLines hs h, if_true]

/-- What a call emits under one width and what it emits under another are the same forms, filled
with the one and the other width.  They have as many blocks as the call has centred lines. -/
def EmitsForms (call : Call) (o : Outcome) (forms : List Form) : Prop :=
  (forms.map Form.blocks).sum = call.centredLines ∧
    ∀ (config : Config) (width : Text),
      (call.centredLines ≠ 0 → config.maxWidth.toText = .ok width) →
      (call.operation.emit config call.arguments).fragments =
        forms.map (fun form => .text (form.fill width)) ∧
      (call.operation.emit config call.arguments).outcome = .ok o

theorem emitsForms_writeTextAt {o : Outcome} (hfit : Operation.Fits .writeTextAt a)
    (ho : (Operation.emit config a .writeTextAt).outcome = .ok o) :
    ∃ forms, EmitsForms ⟨.writeTextAt, a⟩ o forms := by
  obtain ⟨n, hj⟩ := hfit.holds .justification (.choice .justification) (by decide)
  obtain ⟨s, hs⟩ := hfit.holds .value .text (by decide)
  obtain rfl := Operation.outcome_same (by decide) ho
  rw [emit_writeTextAt config hs] at ho
  cases ht : textField config (a .orientation) (a .justification) (a .x) (a .y) s with
  | error f =>
    rw [ht] at ho
    cases ho
  | ok t =>
    obtain ⟨form, -, hform, -⟩ := exists_form_of_textField hj ht
    refine ⟨[form], by simp [blocks_of_textForm hform, Call.centredLines],
      fun config width hw => ?_⟩
    have hwidth : a.isCentred = true → config.maxWidth.toText = .ok width :=
      fun hc => hw (by simp [Call.centredLines, hc])
    dsimp only
    rw [emit_writeTextAt config hs, textField_eq_form hj hwidth, hform]
    exact ⟨rfl, rfl⟩

theorem emit_wrap_eq_form (hj : (a .justification).whole? = some n) {s : Text}
    (hs : a .value = .text s) (hw : a.isCentred = true → config.maxWidth.toText = .ok width) :
    Operation.emit config a .writeTextAtWithWrap =
      Wrap.text (fun y s => (textForm a y s).map (Form.fill width)) (a .wrap) (a .lineInterval)
        (a .maxY) (a .y) s := by
  have hwrite : textField config (a .orientation) (a .justification) (a .x) =
      fun y s => (textForm a y s).map (Form.fill width) := by
    funext y s
    exact textField_eq_form hj hw y s
  simp only [Operation.emit, hs, hwrite]

theorem fills_wrap (a : Arguments) (s : Text) :
    Emission.FilledBy Form.fill (fun form => form.blocks = if a.isCentred then 1 else 0) fun width =>
      Wrap.text (fun y s => (textForm a y s).map (Form.fill width)) (a .wrap) (a .lineInterval)
        (a .maxY) (a .y) s :=
  Wrap.text_filled (fun _ _ _ => blocks_of_textForm) _ _ _ _ s

theorem sum_blocks {forms : List Form} {k : Nat} (h : ∀ form ∈ forms, form.blocks = k) :
    (forms.map Form.blocks).sum = forms.length * k := by
  rw [List.map_congr_left h, List.map_const', List.sum_replicate_nat]

theorem emitsForms_wrap {o : Outcome} (hfit : Operation.Fits .writeTextAtWithWrap a)
    (ho : (Operation.emit config a .writeTextAtWithWrap).outcome = .ok o) :
    ∃ forms, EmitsForms ⟨.writeTextAtWithWrap, a⟩ o forms := by
  obtain ⟨n, hj⟩ := hfit.holds .justification (.choice .justification) (by decide)
  cases hlines : a.placedLines with
  | nil =>
    refine ⟨[], by simp [Call.centredLines, hlines], fun config' width _ => ?_⟩
    have hemit := emit_of_no_lines hfit hlines
    rw [hemit config] at ho
    dsimp only
    rw [hemit config']
    exact ⟨rfl, ho⟩
  | cons first rest =>
    obtain ⟨s, hs⟩ : ∃ s, a .value = .text s := by
      rcases hfit.holds .value .optionalText (by decide) with hnull | htext
      · simp [Arguments.placedLines, hnull] at hlines
      · exact htext
    obtain ⟨texts, hmap, hfragments, -⟩ := emit_wrap_of_ok hfit ho
    have hlength : texts.length = a.placedLines.length := length_of_mapM_eq_ok hmap
    -- The first line has been written, so the width can be written if the lines are centred.
    rw [hlines, List.mapM_cons] at hmap
    obtain ⟨t, ht, -⟩ := exists_of_bind_eq_ok hmap
    obtain ⟨-, width₀, -, hwidth₀⟩ := exists_form_of_textField hj ht
    obtain ⟨forms, notices, outcome, hkind, hfill⟩ := fills_wrap a s
    have hemit (config : Config) (width : Text)
        (hw : a.isCentred = true → config.maxWidth.toText = .ok width) :
        Operation.emit config a .writeTextAtWithWrap =
          ⟨forms.map fun form => .text (form.fill width), notices, outcome⟩ :=
      (emit_wrap_eq_form hj hs hw).trans (hfill width)
    rw [hemit config width₀ hwidth₀] at ho hfragments
    refine ⟨forms, ?_, fun config' width hw => ?_⟩
    · have hforms : forms.length = a.placedLines.length := by
        rw [← hlength]
        simpa using congrArg List.length hfragments
      rw [sum_blocks hkind, hforms, Call.centredLines]
      split <;> simp
    · have hwidth : a.isCentred = true → config'.maxWidth.toText = .ok width :=
        fun hc => hw (by simp [Call.centredLines, hc, hlines])
      dsimp only
      rw [hemit config' width hwidth]
      exact ⟨rfl, ho⟩

theorem emit_eq_of_ne {op : Operation} (hat : op ≠ .writeTextAt) (hwrap : op ≠ .writeTextAtWithWrap)
    (config config' : Config) (a : Arguments) : op.emit config' a = op.emit config a := by
  cases op with
  | writeTextAt => exact absurd rfl hat
  | writeTextAtWithWrap => exact absurd rfl hwrap
  | _ => rfl

/-- A fitting call ends under one width as it does under another, if both can be written. -/
theorem outcome_congr {op : Operation} (hfit : op.Fits a) {config' : Config} {width' : Text}
    (hw : config.maxWidth.toText = .ok width) (hw' : config'.maxWidth.toText = .ok width') :
    (op.emit config' a).outcome = (op.emit config a).outcome := by
  by_cases hat : op = .writeTextAt
  · subst hat
    obtain ⟨n, hj⟩ := hfit.holds .justification (.choice .justification) (by decide)
    obtain ⟨s, hs⟩ := hfit.holds .value .text (by decide)
    rw [emit_writeTextAt config hs, emit_writeTextAt config' hs,
      textField_eq_form hj fun _ => hw, textField_eq_form hj fun _ => hw']
    cases textForm a (a .y) s <;> rfl
  by_cases hwrap : op = .writeTextAtWithWrap
  · subst hwrap
    obtain ⟨n, hj⟩ := hfit.holds .justification (.choice .justification) (by decide)
    rcases hfit.holds .value .optionalText (by decide) with hnull | ⟨s, hs⟩
    · simp only [Operation.emit, hnull]
    · obtain ⟨forms, notices, outcome, -, hfill⟩ := fills_wrap a s
      rw [emit_wrap_eq_form hj hs fun _ => hw, emit_wrap_eq_form hj hs fun _ => hw']
      have hend (width : Text) := congrArg Emission.outcome (hfill width)
      exact (hend width').trans (hend width).symm
  rw [emit_eq_of_ne hat hwrap config config' a]

/-- Every fitting call that does not fail emits forms. -/
theorem exists_emitsForms {op : Operation} (hfit : op.Fits a) {o : Outcome}
    (ho : (op.emit config a).outcome = .ok o) : ∃ forms, EmitsForms ⟨op, a⟩ o forms := by
  by_cases hat : op = .writeTextAt
  · subst hat
    exact emitsForms_writeTextAt hfit ho
  by_cases hwrap : op = .writeTextAtWithWrap
  · subst hwrap
    exact emitsForms_wrap hfit ho
  obtain ⟨texts, htexts⟩ := fragments_of_fits hfit ho
  have hcentred : Call.centredLines ⟨op, a⟩ = 0 := by
    unfold Call.centredLines
    cases op <;> simp_all
  refine ⟨texts.map fun s => [.fixed s], ?_, fun config' width _ => ?_⟩
  · have hblocks : ∀ form ∈ texts.map fun s => [Segment.fixed s], Form.blocks form = 0 := by
      intro form hform
      obtain ⟨s, -, rfl⟩ := List.mem_map.mp hform
      rfl
    rw [hcentred, sum_blocks hblocks, Nat.mul_zero]
  · dsimp only
    rw [emit_eq_of_ne hat hwrap config config' a, htexts, ho]
    simp [Form.fill, Segment.write, Function.comp_def]

end ThermalLabel
