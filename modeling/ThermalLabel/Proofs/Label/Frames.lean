import Mathlib.Data.List.Nodup
import ThermalLabel.Proofs.Label.Emission
import ThermalLabel.Proofs.Label.Filling
import ThermalLabel.Proofs.Label.History
import ThermalLabel.Proofs.Label.Tokens
import ThermalLabel.Proofs.Value.Unbroken

/-!
# Where the tokens of choices stand

What an operation emits for a choice is a list of frames, the same for every choice that has a
token, filled with the token.
-/
namespace ThermalLabel

/-! ### Frames -/

/-- A text with a place for a token. -/
structure Frame where
  before : Text
  after : Text

def Frame.fill (t : Text) (frame : Frame) : Text :=
  frame.before ++ t ++ frame.after

theorem command_append (a b : List Part) : command (a ++ b) = do
    let s ← command a
    let t ← command b
    return s ++ t := by
  induction a with
  | nil => cases hb : command b <;> simp [command, hb, bind, Except.bind, pure, Except.pure]
  | cons p rest ih =>
    rw [List.cons_append, command, command, ih]
    cases p.write with
    | error f => rfl
    | ok s =>
      cases command rest with
      | error f => rfl
      | ok t =>
        cases command b with
        | error f => rfl
        | ok u => simp [bind, Except.bind, pure, Except.pure]

/-- The frame of a command around a part that has the token at its end. -/
def commandFrame (before : List Part) (lead : Text) (after : List Part) : Except Fault Frame := do
  let s ← command before
  let t ← command after
  return ⟨s ++ lead, t⟩

theorem command_eq_frame {p : Part} {lead t : Text} (hp : p.write = .ok (lead ++ t))
    (before after : List Part) :
    command (before ++ p :: after) = (commandFrame before lead after).map (Frame.fill t) := by
  rw [command_append, command, hp, commandFrame]
  cases command before with
  | error f => rfl
  | ok s =>
    cases command after with
    | error f => rfl
    | ok u => simp [Frame.fill, bind, Except.bind, pure, Except.pure, Except.map]

/-! ### Operations -/

namespace Arguments

/-- The arguments with another value for a parameter. -/
def set (a : Arguments) (p : Parameter) (v : Value) : Arguments :=
  Function.update a p v

@[simp] theorem set_self (a : Arguments) (p : Parameter) (v : Value) : a.set p v p = v := by
  rw [set, Function.update_self]

theorem set_of_ne (a : Arguments) {p q : Parameter} (h : q ≠ p) (v : Value) : a.set p v q = a q := by
  rw [set, Function.update_of_ne h]

@[simp] theorem set_set (a : Arguments) (p : Parameter) (v w : Value) :
    (a.set p v).set p w = a.set p w := by
  rw [set, set, set, Function.update_idem]

@[simp] theorem set_get (a : Arguments) (p : Parameter) : a.set p (a p) = a :=
  Function.update_eq_self p a

end Arguments

/-- Another value of the right type does not matter to whether the arguments fit. -/
theorem Operation.Fits.set {op : Operation} {a : Arguments} (h : op.Fits a) {f : Field}
    (hf : f ∈ op.fields) {v : Value} (hv : f.type.Holds v) : op.Fits (a.set f.parameter v) := by
  intro g hg
  by_cases hp : g.parameter = f.parameter
  · have hsame : g = f := List.inj_on_of_nodup_map op.parameters_nodup hg hf hp
    rw [hsame, Arguments.set_self]
    exact hv
  · rw [Arguments.set_of_ne a hp]
    exact h g hg

/-- What a call emits with the values of a choice is the same for all of them that have a token, but
for the token, which stands in the same places. -/
def Framed (config : Config) (op : Operation) (a : Arguments) (p : Parameter) (e : Enumeration) :
    Prop :=
  ∃ (frames : List Frame) (notices : List Notice) (outcome : Except Fault Outcome),
    ∀ v t, TokenOf e v t → op.emit config (a.set p v) =
      ⟨frames.map fun frame => .text (frame.fill t), notices, outcome⟩

variable {config : Config} {op : Operation} {a : Arguments} {p : Parameter} {e : Enumeration}

theorem Framed.of_filledBy {emission : Text → Emission}
    (h : Emission.FilledBy Frame.fill (fun _ => True) emission)
    (hemit : ∀ v t, TokenOf e v t → op.emit config (a.set p v) = emission t) :
    Framed config op a p e := by
  obtain ⟨frames, notices, outcome, -, hfill⟩ := h
  exact ⟨frames, notices, outcome, fun v t ht => (hemit v t ht).trans (hfill t)⟩

theorem Framed.of_command (before : List Part) (hole : Value → Part) (after : List Part)
    (hemit : ∀ v, op.emit config (a.set p v) = .one (command (before ++ hole v :: after)))
    (hhole : ∀ v t, TokenOf e v t → (hole v).write = .ok t) : Framed config op a p e :=
  .of_filledBy (.one (r := commandFrame before [] after) fun _ _ => trivial) fun v t ht => by
    have hwrite : (hole v).write = .ok ([] ++ t) := hhole v t ht
    rw [hemit, command_eq_frame hwrite]

theorem literal_write {s t : Text} (h : s = t) : (Part.literal s).write = .ok t := by
  rw [Part.write, h]

/-- The box of a call. -/
def Arguments.box (a : Arguments) : List Part :=
  boxField (a .width) (a .height) (a .lineThickness) (a .color) (a .roundness)

theorem framed_drawBoxAt_color : Framed config .drawBoxAt a .color .color :=
  .of_command (origin (a .x) (a .y) ++ a.box.take 7) (fun v => .literal (Token.color v))
    (a.box.drop 8 ++ closing) (fun _ => rfl) fun _ _ ht => literal_write (color_of_token ht)

theorem framed_drawBoxAt_roundness : Framed config .drawBoxAt a .roundness .roundness :=
  .of_command (origin (a .x) (a .y) ++ a.box.take 9) (fun v => .token (Token.roundness v)) closing
    (fun _ => rfl) fun _ _ ht => roundness_of_token ht

theorem framed_drawBox_color : Framed config .drawBox a .color .color :=
  .of_command (a.box.take 7) (fun v => .literal (Token.color v)) (a.box.drop 8) (fun _ => rfl)
    fun _ _ ht => literal_write (color_of_token ht)

theorem framed_drawBox_roundness : Framed config .drawBox a .roundness .roundness :=
  .of_command (a.box.take 9) (fun v => .token (Token.roundness v)) [] (fun _ => rfl)
    fun _ _ ht => roundness_of_token ht

theorem framed_barcode_orientation : Framed config .barcode a .orientation .orientation :=
  .of_command (origin (a .x) (a .y) ++ (barcodeField a).take 1)
    (fun v => .literal (Token.orientation v))
    ((barcodeField a).drop 2 ++ fieldData (a .value) ++ closing) (fun _ => rfl)
    fun _ _ ht => literal_write (orientation_of_token ht)

theorem framed_barcode_textPosition :
    Framed config .barcode a .textPosition .barcodeLabelPosition :=
  .of_command (origin (a .x) (a .y) ++ (barcodeField a).take 7)
    (fun v => .token ((Token.textPosition v).map Text.ofString))
    ((barcodeField a).drop 8 ++ fieldData (a .value) ++ closing) (fun _ => rfl)
    fun _ _ ht => textPosition_of_token ht

theorem framed_barcode_mode : Framed config .barcode a .mode .barcodeMode :=
  .of_command (origin (a .x) (a .y) ++ (barcodeField a).take 11)
    (fun v => .literal (Token.barcodeMode v)) (fieldData (a .value) ++ closing) (fun _ => rfl)
    fun _ _ ht => literal_write (barcodeMode_of_token ht)

/-! Texts. -/

/-- The frame of a text around the orientation. -/
def orientationFrame (config : Config) (a : Arguments) (y : Value) (s : Text) :
    Except Fault Frame :=
  if a.isCentred then do
    let width ← config.maxWidth.toText
    commandFrame ["^FO", Value.integer 0, ",", y, .literal ("^FB" ++ width ++ ",1,0,C,0")] "^AO"
      ["^FH^FD", Escape.encode s, fieldEnd]
  else
    commandFrame ["^FO", a .x, ",", y, Token.pick Token.justifications "" (a .justification)] "^AO"
      ["^FH^FD", Escape.encode s, fieldEnd]

/-- The frame of a text around the suffix of the justification. -/
def justificationFrame (a : Arguments) (y : Value) (s : Text) : Except Fault Frame :=
  commandFrame ["^FO", a .x, ",", y] []
    [Token.fontOrientation (a .orientation), "^FH^FD", Escape.encode s, fieldEnd]

theorem textField_orientation {n : Int} (hj : (a .justification).whole? = some n) {v : Value}
    {t : Text} (ht : TokenOf .orientation v t) (y : Value) (s : Text) :
    textField config v (a .justification) (a .x) y s =
      (orientationFrame config a y s).map (Frame.fill t) := by
  have hlead : (Part.literal (Token.fontOrientation v)).write = .ok ("^AO" ++ t) := by
    rw [Part.write, Token.fontOrientation, ← orientation_of_token ht]
    simp [Text.ofString, Text.ofChars]
  have hcentred : (a.set .orientation v).isCentred = a.isCentred := rfl
  refine (textField_eq (a := a.set .orientation v) hj y s).trans ?_
  rw [hcentred, orientationFrame]
  split
  · cases config.maxWidth.toText with
    | error f => rfl
    | ok width =>
      change _ = (commandFrame _ _ _).map _
      rw [← command_eq_frame hlead]
      rfl
  · rw [← command_eq_frame hlead]
    rfl

theorem textField_justification {v : Value} {t : Text} (ht : TokenOf .justification v t)
    (y : Value) (s : Text) :
    textField config (a .orientation) v (a .x) y s =
      (justificationFrame a y s).map (Frame.fill t) := by
  obtain ⟨n, hn, -⟩ := id ht
  have hcentred : (a.set .justification v).isCentred = false := not_centred_of_token ht
  refine (textField_eq (a := a.set .justification v) hn y s).trans ?_
  rw [hcentred, if_neg (by decide), justificationFrame,
    ← command_eq_frame (literal_write (justification_of_token ht))]
  rfl

section Texts

variable {write : Value → Text → Except Fault Frame}
  (hp : p = .orientation ∨ p = .justification)
  (hwrite : ∀ v t, TokenOf e v t → ∀ y s,
    textField config (a.set p v .orientation) (a.set p v .justification) (a.set p v .x) y s =
      (write y s).map (Frame.fill t))
include hp hwrite

/-- Texts have a frame if their fields have one. -/
theorem framed_writeTextAt (hfit : Operation.Fits .writeTextAt a) :
    Framed config .writeTextAt a p e := by
  obtain ⟨s, hs⟩ := hfit.holds .value .text (by decide)
  refine .of_filledBy (.one (r := write (a .y) s) fun _ _ => trivial) fun v t ht => ?_
  rw [← hwrite v t ht]
  rcases hp with rfl | rfl <;> exact emit_writeTextAt config hs

theorem framed_wrap (hfit : Operation.Fits .writeTextAtWithWrap a) :
    Framed config .writeTextAtWithWrap a p e := by
  rcases hfit.holds .value .optionalText (by decide) with hnull | ⟨s, hs⟩
  · refine .of_filledBy (.const (e := ⟨[], [], .ok (.endingY (a .y))⟩) rfl) fun v t _ => ?_
    have hnull : a.set p v .value = .null := by rcases hp with rfl | rfl <;> exact hnull
    simp only [Operation.emit, hnull]
    rcases hp with rfl | rfl <;> rfl
  · have hfilled : Emission.FilledBy Frame.fill (fun _ => True) fun t =>
        Wrap.text (fun y s => (write y s).map (Frame.fill t)) (a .wrap) (a .lineInterval) (a .maxY)
          (a .y) s := Wrap.text_filled (fun _ _ _ _ => trivial) _ _ _ _ s
    refine .of_filledBy hfilled fun v t ht => ?_
    have hs : a.set p v .value = .text s := by rcases hp with rfl | rfl <;> exact hs
    have hfield : textField config (a.set p v .orientation) (a.set p v .justification)
        (a.set p v .x) = fun y s => (write y s).map (Frame.fill t) := by
      funext y s
      exact hwrite v t ht y s
    simp only [Operation.emit, hs, hfield]
    rcases hp with rfl | rfl <;> rfl

end Texts

/-! ### All choices -/

/-- The operation takes a choice from the enumeration as the parameter. -/
inductive Takes : Operation → Parameter → Enumeration → Prop
  | boxAtColor : Takes .drawBoxAt .color .color
  | boxAtRoundness : Takes .drawBoxAt .roundness .roundness
  | boxColor : Takes .drawBox .color .color
  | boxRoundness : Takes .drawBox .roundness .roundness
  | textOrientation : Takes .writeTextAt .orientation .orientation
  | textJustification : Takes .writeTextAt .justification .justification
  | wrapOrientation : Takes .writeTextAtWithWrap .orientation .orientation
  | wrapJustification : Takes .writeTextAtWithWrap .justification .justification
  | barcodeOrientation : Takes .barcode .orientation .orientation
  | barcodeTextPosition : Takes .barcode .textPosition .barcodeLabelPosition
  | barcodeMode : Takes .barcode .mode .barcodeMode

theorem takes_of_mem {f : Field} (hf : f ∈ op.fields) (ht : f.type = .choice e) :
    Takes op f.parameter e := by
  have hall : ∀ f ∈ op.fields, ∀ e, f.type = .choice e → Takes op f.parameter e := by
    cases op <;>
      simp [Operation.fields, Field.integer, Field.text, Field.flag, Field.choice, Field.option,
        Member.black, Member.unrounded, Member.upright, Member.left]
    case drawBoxAt => exact ⟨.boxAtColor, .boxAtRoundness⟩
    case drawBox => exact ⟨.boxColor, .boxRoundness⟩
    case writeTextAt => exact ⟨.textOrientation, .textJustification⟩
    case writeTextAtWithWrap => exact ⟨.wrapOrientation, .wrapJustification⟩
    case barcode => exact ⟨.barcodeOrientation, .barcodeTextPosition, .barcodeMode⟩
  exact hall f hf e ht

theorem framed_of_takes (config : Config) (hfit : op.Fits a) (h : Takes op p e) : Framed config op a p e := by
  cases h with
  | boxAtColor => exact framed_drawBoxAt_color
  | boxAtRoundness => exact framed_drawBoxAt_roundness
  | boxColor => exact framed_drawBox_color
  | boxRoundness => exact framed_drawBox_roundness
  | barcodeOrientation => exact framed_barcode_orientation
  | barcodeTextPosition => exact framed_barcode_textPosition
  | barcodeMode => exact framed_barcode_mode
  | textOrientation =>
    obtain ⟨n, hj⟩ := hfit.holds .justification (.choice .justification) (by decide)
    exact framed_writeTextAt (.inl rfl) (fun _ _ ht => textField_orientation hj ht) hfit
  | wrapOrientation =>
    obtain ⟨n, hj⟩ := hfit.holds .justification (.choice .justification) (by decide)
    exact framed_wrap (.inl rfl) (fun _ _ ht => textField_orientation hj ht) hfit
  | textJustification =>
    exact framed_writeTextAt (.inr rfl) (fun _ _ ht => textField_justification (a := a) ht) hfit
  | wrapJustification =>
    exact framed_wrap (.inr rfl) (fun _ _ ht => textField_justification (a := a) ht) hfit

/-! ### Choices without a token -/

theorem writable_of_command {parts : List Part} {s : Text} (h : command parts = .ok s) :
    ∀ q ∈ parts, q.Writable := by
  induction parts generalizing s with
  | nil => simp
  | cons q rest ih =>
    obtain ⟨t, u, hq, hrest, -⟩ := command_cons_eq_ok.mp h
    exact List.forall_mem_cons.mpr ⟨⟨t, hq⟩, ih hrest⟩

/-- A part that cannot be written decides the fault if the parts before it can. -/
theorem command_of_fault (before after : List Part) {q q' : Part} {s : Text}
    (h : command (before ++ q :: after) = .ok s) {f : Fault} (hq' : q'.write = .error f) :
    command (before ++ q' :: after) = .error f := by
  rw [command_append] at h ⊢
  obtain ⟨t, hbefore, -⟩ := exists_of_bind_eq_ok h
  rw [hbefore, command, hq']
  rfl

theorem exists_of_outcome_one {r : Except Fault Text} {o : Outcome}
    (h : (Emission.one r).outcome = .ok o) : ∃ s, r = .ok s := by
  cases r with
  | ok s => exact ⟨s, rfl⟩
  | error f => cases h

/-- A rounding that cannot be written is the fault of a box that could otherwise be drawn. -/
theorem emit_of_long_roundness (h : Takes op p .roundness) {o : Outcome}
    (ho : (op.emit config a).outcome = .ok o) {v : Value} {n : Int} (hv : v.whole? = some n)
    {f : Fault} (hn : Value.integerText n = .error f) : op.emit config (a.set p v) = .fault f := by
  have hlong : (Part.token (Token.roundness v)).write = .error f := (roundness_of_whole hv).trans hn
  cases h with
  | boxAtRoundness =>
    obtain ⟨s, hs⟩ := exists_of_outcome_one ho
    exact congrArg Emission.one
      (command_of_fault (origin (a .x) (a .y) ++ a.box.take 9) closing hs hlong)
  | boxRoundness =>
    obtain ⟨s, hs⟩ := exists_of_outcome_one ho
    exact congrArg Emission.one (command_of_fault (a.box.take 9) [] hs hlong)

/-- A centred field can also be written at the left, if its position can be written. -/
theorem exists_textField_left (hc : a.isCentred = true) (hx : (a .x).Short) {y : Value} {s t : Text}
    {n : Int} (hj : (a .justification).whole? = some n)
    (h : textField config (a .orientation) (a .justification) (a .x) y s = .ok t) :
    ∃ t', textField config (a .orientation) (.member .left) (a .x) y s = .ok t' := by
  rw [textField_eq hj, if_pos hc] at h
  obtain ⟨width, -, h⟩ := exists_of_bind_eq_ok h
  have hy : (Part.value y).Writable := writable_of_command h _ (by simp)
  obtain ⟨before, hbefore⟩ : ∃ before, command ["^FO", a .x, ",", y] = .ok before :=
    command_of_writable (by simp [hy, Part.writable_value hx])
  obtain ⟨after, hafter⟩ : ∃ after, command [Token.fontOrientation (a .orientation), "^FH^FD",
      Escape.encode s, fieldEnd] = .ok after := command_of_writable (by simp)
  rw [textField_justification tokenOf_left, justificationFrame, commandFrame, hbefore, hafter]
  exact ⟨_, rfl⟩

theorem outcome_left_of_centred (h : Takes op p .justification) (hfit : op.Fits a)
    (hc : a.isCentred = true) (hx : (a .x).Short) {o : Outcome}
    (ho : (op.emit config a).outcome = .ok o) :
    ∃ o', (op.emit config (a.set p (.member .left))).outcome = .ok o' := by
  cases h with
  | textJustification =>
    obtain ⟨n, hj⟩ := hfit.holds .justification (.choice .justification) (by decide)
    obtain ⟨s, hs⟩ := hfit.holds .value .text (by decide)
    rw [emit_writeTextAt config hs] at ho
    obtain ⟨t, ht⟩ := exists_of_outcome_one ho
    obtain ⟨t', ht'⟩ := exists_textField_left hc hx hj ht
    refine ⟨.same, ?_⟩
    rw [emit_writeTextAt config (a := a.set .justification (.member .left)) hs]
    change (Emission.one
      (textField config (a .orientation) (.member .left) (a .x) (a .y) s)).outcome = .ok .same
    rw [ht']
    rfl
  | wrapJustification =>
    obtain ⟨n, hj⟩ := hfit.holds .justification (.choice .justification) (by decide)
    obtain ⟨texts, htexts, -⟩ := emit_wrap_of_ok hfit ho
    have hlines : ∀ line ∈ a.placedLines, ∃ t',
        textField config (a .orientation) (.member .left) (a .x) line.1 line.2 = .ok t' := by
      intro line hline
      obtain ⟨t, ht⟩ := exists_of_mapM_eq_ok htexts hline
      exact exists_textField_left hc hx hj ht
    obtain ⟨texts', htexts'⟩ := mapM_of_forall hlines
    have hfit' : Operation.Fits .writeTextAtWithWrap (a.set .justification (.member .left)) :=
      hfit.set (f := .option .justification .left) (by simp [Operation.fields]) ⟨0, rfl⟩
    have hwrites : Wrap.Writes _ (a.placedLines.mapM fun line =>
        textField config (a .orientation) (.member .left) (a .x) line.1 line.2) :=
      emit_wrap_eq_mapM config hfit'
    rw [htexts'] at hwrites
    obtain ⟨-, y, hy⟩ := hwrites
    exact ⟨_, hy⟩

/-! ### Where the tokens stand -/

/-- The number of fragments that show a choice of a call: each line of a wrapped text does. -/
def Operation.places (a : Arguments) : Operation → Nat
  | .writeTextAtWithWrap => a.placedLines.length
  | _ => 1

theorem length_of_outcome_ok (h : Takes op p e) (hfit : op.Fits a) {o : Outcome}
    (ho : (op.emit config a).outcome = .ok o) :
    (op.emit config a).fragments.length = op.places a := by
  cases h with
  | wrapOrientation | wrapJustification =>
    obtain ⟨texts, htexts, hfragments, -⟩ := emit_wrap_of_ok hfit ho
    rw [hfragments, List.length_map, length_of_mapM_eq_ok htexts, Operation.places]
  | _ => exact (Operation.emit_all_or_none config a (n := 1) rfl).1 o ho

theorem places_set (h : Takes op p e) (v : Value) : op.places (a.set p v) = op.places a := by
  cases h <;> rfl

/-- If a call succeeds with one choice, what it emits is the same for every choice that has a token
but for the token, which stands in each of its places.  It succeeds with all of them, unless it has
a centred text: that does not write where it starts, which texts with another justification do. -/
theorem exists_frames {f : Field} (hf : f ∈ op.fields) (ht : f.type = .choice e) (hfit : op.Fits a)
    {o : Outcome} (ho : (op.emit config a).outcome = .ok o) :
    ∃ (frames : List Frame) (notices : List Notice) (outcome : Except Fault Outcome),
      (∀ v t, TokenOf e v t → op.emit config (a.set f.parameter v) =
        ⟨frames.map fun frame => .text (frame.fill t), notices, outcome⟩) ∧
      ((∃ o', outcome = .ok o' ∧ frames.length = op.places a) ∨
        ∃ fault, outcome = .error fault ∧ e = .justification ∧ a.isCentred = true ∧
          ¬(a .x).Short) := by
  have htakes := takes_of_mem hf ht
  obtain ⟨frames, notices, outcome, hemit⟩ := framed_of_takes config hfit htakes
  refine ⟨frames, notices, outcome, hemit, ?_⟩
  have houtcome {v : Value} {t : Text} (htoken : TokenOf e v t) :
      (op.emit config (a.set f.parameter v)).outcome = outcome := by rw [hemit v t htoken]
  cases outcome with
  | ok o' =>
    refine .inl ⟨o', rfl, ?_⟩
    obtain ⟨v, t, htoken⟩ := exists_tokenOf e
    obtain ⟨n, hn, -⟩ := id htoken
    have hfit' : op.Fits (a.set f.parameter v) := hfit.set hf (by rw [ht]; exact ⟨n, hn⟩)
    have hlength := length_of_outcome_ok htakes hfit' (houtcome htoken)
    rwa [hemit v t htoken, List.length_map, places_set htakes] at hlength
  | error fault =>
    obtain ⟨n, hn⟩ : ∃ n, (a f.parameter).whole? = some n := by
      have hholds := hfit f hf
      rwa [ht] at hholds
    rcases exists_writes e n with ⟨t, hwrites⟩ | ⟨rfl, rfl⟩ | ⟨rfl, fault', hlong⟩
    · have hfault := houtcome ⟨n, hn, hwrites⟩
      rw [Arguments.set_get, ho] at hfault
      cases hfault
    · have hcentred : a.isCentred = true := by
        have hp : f.parameter = .justification := by
          generalize f.parameter = p at htakes
          cases htakes <;> rfl
        rw [hp] at hn
        rw [Arguments.isCentred, isNumber_of_whole hn, beq_self_eq_true]
      refine .inr ⟨fault, rfl, rfl, hcentred, fun hx => ?_⟩
      obtain ⟨o', ho'⟩ := outcome_left_of_centred htakes hfit hcentred hx ho
      rw [houtcome tokenOf_left] at ho'
      cases ho'
    · have hfault := emit_of_long_roundness htakes ho hn hlong
      rw [Arguments.set_get] at hfault
      rw [hfault] at ho
      cases ho

end ThermalLabel
