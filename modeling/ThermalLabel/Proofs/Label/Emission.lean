import Mathlib.Data.List.Forall2
import ThermalLabel.Label.Emit
import ThermalLabel.Proofs.Label.Lines

/-!
# Emissions of fitting arguments

`Operation.Fits` says that the arguments of a call are of the types that the operation declares.
Such a call cannot fail for any reason but one, an integer that is too long to be written, and
`Operation.written` lists the values that are written.  `emit_of_fits` puts both together.
-/
namespace ThermalLabel

/-- The values that are of the type of a field, once choices have been read. -/
def FieldType.Holds : FieldType → Value → Prop
  | .integer, v | .choice _, v => ∃ n, v.whole? = some n
  | .text, v => ∃ s, v = .text s
  | .flag, v => ∃ b, v = .flag b
  | .optionalText, v => v = .null ∨ ∃ s, v = .text s
  | .number, v => (∃ n, v.whole? = some n) ∨ ∃ x, v = .double x

/-- Of the choices only a rounding is written as the integer that was given. -/
def FieldType.isWritten : FieldType → Bool
  | .choice e => e == .roundness
  | _ => true

namespace Operation

/-- The arguments are of the types that the operation declares. -/
def Fits (op : Operation) (a : Arguments) : Prop :=
  ∀ f ∈ op.fields, f.type.Holds (a f.parameter)

def declares (op : Operation) (p : Parameter) (t : FieldType) : Bool :=
  op.fields.any fun f => f.parameter == p && f.type == t

theorem Fits.holds {op : Operation} {a : Arguments} (h : op.Fits a) (p : Parameter)
    (t : FieldType) (hp : op.declares p t = true) : t.Holds (a p) := by
  simp only [declares, List.any_eq_true, Bool.and_eq_true, beq_iff_eq] at hp
  obtain ⟨f, hf, rfl, rfl⟩ := hp
  exact h f hf

end Operation

namespace Arguments

def isCentred (a : Arguments) : Bool :=
  (a .justification).isNumber Member.center.number

/-- What is written next to the vertical position of a text: the width of its block, or its
horizontal position. -/
def margin (config : Config) (a : Arguments) : Value :=
  if a.isCentred then config.maxWidth else a .x

def whole (a : Arguments) (p : Parameter) : Int :=
  (a p).whole?.getD 0

/-- The lines of a wrapped text as far as they are placed, with their positions. -/
def placedLines (a : Arguments) : List (Value × Text) :=
  match a .value with
  | .text s =>
    let lines := Wrap.lineTexts (a.whole .wrap) s
    (Wrap.positions (a.whole .lineInterval) (a.whole .maxY) lines.length (a .y)).zip lines
  | _ => []

theorem whole_of_mem_placedLines {a : Arguments} {n : Int} (hy : (a .y).whole? = some n)
    {line : Value × Text} (h : line ∈ a.placedLines) : ∃ m, line.1.whole? = some m := by
  unfold placedLines at h
  split at h
  · exact Wrap.whole_of_mem_positions hy (List.of_mem_zip h).1
  · simp at h

/-- The placed lines hold nothing but spaces and what the wrapped text holds. -/
theorem text_of_mem_placedLines {a : Arguments} {line : Value × Text} (h : line ∈ a.placedLines) :
    ∃ s, a .value = .text s ∧ ∀ c ∈ line.2, c = .char ' ' ∨ c ∈ s := by
  unfold placedLines at h
  split at h
  · rename_i s hs
    exact ⟨s, hs, fun c hc => Wrap.mem_of_mem_lineTexts (List.of_mem_zip h).2 hc⟩
  · simp at h

end Arguments

/-- The values that an operation writes into a label. -/
def Operation.written (config : Config) (a : Arguments) : Operation → List Value
  | .writeTextAt => [a.margin config, a .y]
  | .writeTextAtWithWrap => a.placedLines.flatMap fun line => [a.margin config, line.1]
  | op => (op.fields.filter (·.type.isWritten)).map fun f => a f.parameter

theorem Operation.mem_written {config : Config} {op : Operation} {a : Arguments} {p : Parameter}
    (hat : op ≠ .writeTextAt) (hwrap : op ≠ .writeTextAtWithWrap)
    (hp : (op.fields.any fun f => f.parameter == p && f.type.isWritten) = true) :
    a p ∈ op.written config a := by
  simp only [List.any_eq_true, Bool.and_eq_true, beq_iff_eq] at hp
  obtain ⟨f, hf, rfl, hw⟩ := hp
  rw [written] <;> try assumption
  exact List.mem_map.mpr ⟨f, List.mem_filter.mpr ⟨hf, hw⟩, rfl⟩

/-- The part has a text. -/
def Part.Writable (p : Part) : Prop :=
  ∃ s, p.write = .ok s

namespace Part

@[simp] theorem writable_literal (s : Text) : Writable (.literal s) := ⟨s, rfl⟩

theorem writable_value {v : Value} (h : v.Short) : Writable (.value v) :=
  Value.toText_of_short h

theorem writable_token {t : Except Fault Text} (h : ∃ s, t = .ok s) : Writable (.token t) := h

@[simp] theorem writable_zero : Writable (.value (.integer 0)) := ⟨_, rfl⟩

end Part

theorem command_cons_eq_ok {p : Part} {rest : List Part} {s : Text} :
    command (p :: rest) = .ok s ↔
      ∃ t u, p.write = .ok t ∧ command rest = .ok u ∧ s = t ++ u := by
  rw [command]
  cases p.write with
  | error f => simp [bind, Except.bind]
  | ok t =>
    cases command rest with
    | error f => simp [bind, Except.bind]
    | ok u => simp [bind, Except.bind, pure, Except.pure, eq_comm]

theorem command_of_writable {parts : List Part} (h : ∀ p ∈ parts, p.Writable) :
    ∃ s, command parts = .ok s := by
  induction parts with
  | nil => exact ⟨[], rfl⟩
  | cons p rest ih =>
    obtain ⟨t, ht⟩ := h p List.mem_cons_self
    obtain ⟨u, hu⟩ := ih fun q hq => h q (List.mem_cons_of_mem _ hq)
    exact ⟨t ++ u, command_cons_eq_ok.mpr ⟨t, u, ht, hu, rfl⟩⟩

theorem writable_of_lt_thousand {n : Nat} (h : n < 1000) : Number.writable n := by
  have hdigits : Number.digitCount n ≤ 3 :=
    (Nat.length_toDigits_le_iff (by decide) (by decide)).mpr h
  have hmax : Number.digitCount n ≤ Number.maxDigits := Nat.le_trans hdigits (by decide)
  simpa [Number.writable] using hmax

theorem short_one : Value.Short (.integer 1) :=
  Value.short_integer.mpr (writable_of_lt_thousand (by decide))

namespace Token

/-- The rounding is an integer that is short enough, or a member, whose number has one digit. -/
theorem roundness_of_short {v : Value} {n : Int} (hv : v.whole? = some n) (h : v.Short) :
    ∃ s, roundness v = .ok s := by
  cases v with
  | integer m =>
    have hm : Number.writable m := Value.short_integer.mp h
    simp [roundness, Value.toInteger, Value.integer?, Value.integerText, hm, bind, Except.bind]
  | member m =>
    have hlt : m.number < 1000 := by
      have hlen : m.enumeration.names.length ≤ 9 := by cases m.enumeration <;> decide
      have hrange := m.inRange
      omega
    simp [roundness, Value.toInteger, Value.integer?, Value.integerText, writable_of_lt_thousand hlt,
      bind, Except.bind]
  | _ => simp [Value.whole?] at hv

theorem textPosition_of_whole {v : Value} {n : Int} (hv : v.whole? = some n) :
    ∃ s, textPosition v = .ok s := by
  simp [textPosition, Value.is, Value.isSignaling_of_whole? hv, Except.map]

end Token

theorem is_center_of_whole {a : Arguments} {n : Int} (h : (a .justification).whole? = some n) :
    (a .justification).is .center = .ok a.isCentred := by
  simp [Value.is, Value.isSignaling_of_whole? h, Arguments.isCentred]

/-- A text at a position, with the block or the suffix that its justification gives. -/
theorem textField_eq {config : Config} {a : Arguments} {n : Int}
    (h : (a .justification).whole? = some n) (y : Value) (s : Text) :
    textField config (a .orientation) (a .justification) (a .x) y s =
      if a.isCentred then do
        let width ← config.maxWidth.toText
        command ["^FO", Value.integer 0, ",", y, .literal ("^FB" ++ width ++ ",1,0,C,0"),
          Token.fontOrientation (a .orientation), "^FH^FD", Escape.encode s, fieldEnd]
      else
        command ["^FO", a .x, ",", y,
          Token.pick Token.justifications "" (a .justification),
          Token.fontOrientation (a .orientation), "^FH^FD", Escape.encode s, fieldEnd] := by
  rw [textField, Token.justification, is_center_of_whole h]
  by_cases hc : a.isCentred
  · simp only [hc, if_true, bind, Except.bind]
    cases config.maxWidth.toText <;> rfl
  · simp only [hc, bind, Except.bind]
    rfl

theorem textField_of_short {config : Config} {a : Arguments} {n : Int}
    (h : (a .justification).whole? = some n) {y : Value} (hm : (a.margin config).Short)
    (hy : y.Short) (s : Text) :
    ∃ t, textField config (a .orientation) (a .justification) (a .x) y s = .ok t := by
  rw [textField_eq h]
  unfold Arguments.margin at hm
  split at hm
  · rename_i hc
    obtain ⟨width, hwidth⟩ := Value.toText_of_short hm
    rw [if_pos hc, hwidth]
    refine command_of_writable ?_
    simp [Part.writable_value hy]
  · rename_i hc
    rw [if_neg hc]
    refine command_of_writable ?_
    simp [Part.writable_value hy, Part.writable_value hm]

theorem emit_writeTextAt (config : Config) {a : Arguments} {s : Text} (hs : a .value = .text s) :
    Operation.emit config a .writeTextAt =
      .one (textField config (a .orientation) (a .justification) (a .x) (a .y) s) := by
  rw [Operation.emit, hs]
  rfl

theorem mapM_of_forall {α β ε : Type} {f : α → Except ε β} {xs : List α}
    (h : ∀ x ∈ xs, ∃ y, f x = .ok y) : ∃ ys, xs.mapM f = .ok ys := by
  induction xs with
  | nil => exact ⟨[], rfl⟩
  | cons x rest ih =>
    obtain ⟨y, hy⟩ := h x List.mem_cons_self
    obtain ⟨ys, hys⟩ := ih fun x hx => h x (List.mem_cons_of_mem _ hx)
    exact ⟨y :: ys, by simp [hy, hys, bind, Except.bind, pure, Except.pure]⟩

theorem mapM_map_eq {α β γ ε : Type} {f : β → Except ε γ} {k : α → β} {g : α → γ} {xs : List α}
    (h : ∀ x ∈ xs, f (k x) = .ok (g x)) : (xs.map k).mapM f = .ok (xs.map g) := by
  induction xs with
  | nil => rfl
  | cons x rest ih =>
    rw [List.forall_mem_cons] at h
    rw [List.map_cons, List.mapM_cons, h.1, ih h.2]
    rfl

theorem forall₂_of_mapM_eq_ok {α β ε : Type} {f : α → Except ε β} {R : α → β → Prop} {xs : List α}
    {ys : List β} (h : xs.mapM f = .ok ys) (hf : ∀ x ∈ xs, ∀ y, f x = .ok y → R x y) :
    List.Forall₂ R xs ys := by
  induction xs generalizing ys with
  | nil =>
    cases h
    exact .nil
  | cons x rest ih =>
    rw [List.mapM_cons] at h
    cases hx : f x with
    | error e => simp [hx, bind, Except.bind] at h
    | ok y =>
      cases hrest : rest.mapM f with
      | error e => simp [hx, hrest, bind, Except.bind] at h
      | ok ys' =>
        simp only [hx, hrest, bind, Except.bind, pure, Except.pure, Except.ok.injEq] at h
        subst h
        exact .cons (hf x List.mem_cons_self y hx)
          (ih hrest fun x hx => hf x (List.mem_cons_of_mem _ hx))

theorem length_of_mapM_eq_ok {α β ε : Type} {f : α → Except ε β} {xs : List α} {ys : List β}
    (h : xs.mapM f = .ok ys) : ys.length = xs.length :=
  (forall₂_of_mapM_eq_ok (R := fun _ _ => True) h fun _ _ _ _ => trivial).length_eq.symm

theorem exists_of_mapM_eq_ok {α β ε : Type} {f : α → Except ε β} {xs : List α} {ys : List β}
    (h : xs.mapM f = .ok ys) {x : α} (hx : x ∈ xs) : ∃ y, f x = .ok y := by
  have hall : List.Forall₂ (fun x y => f x = .ok y) xs ys :=
    forall₂_of_mapM_eq_ok h fun _ _ _ hy => hy
  clear h
  induction hall with
  | nil => cases hx
  | cons hfirst _ ih =>
    rcases List.mem_cons.mp hx with rfl | hx
    · exact ⟨_, hfirst⟩
    · exact ih hx

theorem exists_of_mem_mapM {α β ε : Type} {f : α → Except ε β} {xs : List α} {ys : List β}
    (h : xs.mapM f = .ok ys) {y : β} (hy : y ∈ ys) : ∃ x ∈ xs, f x = .ok y := by
  have hall : List.Forall₂ (fun x y => f x = .ok y) xs ys :=
    forall₂_of_mapM_eq_ok h fun _ _ _ hy => hy
  clear h
  induction hall with
  | nil => cases hy
  | cons hfirst _ ih =>
    rcases List.mem_cons.mp hy with rfl | hy
    · exact ⟨_, List.mem_cons_self, hfirst⟩
    · obtain ⟨x, hx, hfx⟩ := ih hy
      exact ⟨x, List.mem_cons_of_mem _ hx, hfx⟩

/-- A wrapped text writes its placed lines, each like a text at a position. -/
theorem emit_wrap_eq_mapM (config : Config) {a : Arguments}
    (hfit : Operation.Fits .writeTextAtWithWrap a) :
    Wrap.Writes (Operation.emit config a .writeTextAtWithWrap)
      (a.placedLines.mapM fun line =>
        textField config (a .orientation) (a .justification) (a .x) line.1 line.2) := by
  simp only [Operation.Fits, Operation.fields, Field.integer, Field.option, List.forall_mem_cons,
    FieldType.Holds] at hfit
  obtain ⟨-, ⟨y, hy⟩, hvalue, ⟨w, hw⟩, ⟨i, hi⟩, ⟨l, hl⟩, -⟩ := hfit
  rcases hvalue with hnull | ⟨s, hs⟩
  · simp only [Operation.emit, Arguments.placedLines, hnull]
    exact ⟨rfl, a .y, rfl⟩
  · simp only [Operation.emit, Arguments.placedLines, Arguments.whole, hs, hw, hi, hl,
      Option.getD_some]
    exact Wrap.text_eq_mapM hw hi hl hy s

/-- A wrapped text that does not fail has written all of its placed lines. -/
theorem emit_wrap_of_ok {config : Config} {a : Arguments}
    (hfit : Operation.Fits .writeTextAtWithWrap a) {o : Outcome}
    (ho : (Operation.emit config a .writeTextAtWithWrap).outcome = .ok o) :
    ∃ texts, a.placedLines.mapM (fun line =>
        textField config (a .orientation) (a .justification) (a .x) line.1 line.2) = .ok texts ∧
      (Operation.emit config a .writeTextAtWithWrap).fragments = texts.map .text ∧
      ∃ y, o = .endingY y := by
  have hwrites := emit_wrap_eq_mapM config hfit
  cases hm : a.placedLines.mapM fun line =>
      textField config (a .orientation) (a .justification) (a .x) line.1 line.2 with
  | ok texts =>
    rw [hm] at hwrites
    obtain ⟨hfragments, y, hy⟩ := hwrites
    rw [ho] at hy
    exact ⟨texts, rfl, hfragments, y, Except.ok.inj hy⟩
  | error f =>
    rw [hm] at hwrites
    have hfail : (Operation.emit config a .writeTextAtWithWrap).outcome = .error f := hwrites
    rw [ho] at hfail
    cases hfail

theorem boxField_writable {width height thickness roundness : Value} {n : Int} (color : Value)
    (hw : width.Short) (hh : height.Short) (ht : thickness.Short)
    (hn : roundness.whole? = some n) (hr : roundness.Short) :
    ∀ p ∈ boxField width height thickness color roundness, p.Writable := by
  simp [boxField, Part.writable_value, Part.writable_token, Token.roundness_of_short hn hr, *]

theorem barcodeField_writable {a : Arguments} {n : Int} (hn : (a .textPosition).whole? = some n)
    (hh : (a .height).Short) : ∀ p ∈ barcodeField a, p.Writable := by
  obtain ⟨s, hs⟩ := Token.textPosition_of_whole hn
  have hp : (Part.token (Text.ofString <$> Token.textPosition (a .textPosition))).Writable := by
    rw [hs]
    exact ⟨_, rfl⟩
  simp [barcodeField, Part.writable_value hh, hp]

/-- How an operation ends that does not fail: only a wrapped text gives a position. -/
def Operation.Ends (op : Operation) : Outcome → Prop
  | .same => op ≠ .writeTextAtWithWrap
  | .endingY _ => op = .writeTextAtWithWrap

theorem Emission.outcome_one {r : Except Fault Text} {o : Outcome}
    (h : (Emission.one r).outcome = .ok o) : o = .same := by
  cases r with
  | ok s => exact (Except.ok.inj h).symm
  | error f => cases h

/-- Whatever its arguments are, no operation but a wrapped text ends with a position. -/
theorem Operation.outcome_same {config : Config} {op : Operation} {a : Arguments}
    (hop : op ≠ .writeTextAtWithWrap) {o : Outcome} (ho : (op.emit config a).outcome = .ok o) :
    o = .same := by
  cases op with
  | start | finish | raw | reversePrint | endField | addVoidMessage => exact (Except.ok.inj ho).symm
  | writeTextAtWithWrap => exact absurd rfl hop
  | _ => exact Emission.outcome_one ho

theorem Operation.ends_of_ok {config : Config} {op : Operation} {a : Arguments} (hfit : op.Fits a)
    {o : Outcome} (ho : (op.emit config a).outcome = .ok o) : op.Ends o := by
  by_cases hop : op = .writeTextAtWithWrap
  · subst hop
    obtain ⟨-, -, -, y, rfl⟩ := emit_wrap_of_ok hfit ho
    rfl
  · cases Operation.outcome_same hop ho
    exact hop

def voidText (y : Nat) (letter : String) : Text :=
  Text.ofString ("^ADN,60,40^FO300," ++ toString y ++ "^FD" ++ letter ++ fieldEnd)

/-- The texts of the watermark. -/
def voidTexts : List Text :=
  "^FO0,0^GD650,700,10,,R ^FS" :: voidLetters.map fun entry => voidText entry.1 entry.2

theorem voidFragments_eq : voidFragments = voidTexts.map .text := by
  simp [voidFragments, voidTexts, voidText, Function.comp_def]

/-- A fitting call that does not fail adds nothing but texts. -/
theorem fragments_of_fits {config : Config} {op : Operation} {a : Arguments} (hfit : op.Fits a)
    {o : Outcome} (ho : (op.emit config a).outcome = .ok o) :
    ∃ texts : List Text, (op.emit config a).fragments = texts.map .text := by
  have hone (r : Except Fault Text) :
      ∃ texts : List Text, (Emission.one r).fragments = texts.map .text := by
    cases r with
    | ok s => exact ⟨[s], rfl⟩
    | error f => exact ⟨[], rfl⟩
  cases op with
  | start => exact ⟨["^XA"], rfl⟩
  | finish => exact ⟨["~JSN", "^XZ"], rfl⟩
  | reversePrint => exact ⟨["^FR"], rfl⟩
  | endField => exact ⟨[fieldEnd], rfl⟩
  | raw =>
    obtain ⟨s, hs⟩ := hfit.holds .value .text (by decide)
    exact ⟨[s], by simp [Operation.emit, Emission.done, hs]⟩
  | addVoidMessage => exact ⟨voidTexts, voidFragments_eq⟩
  | writeTextAtWithWrap =>
    obtain ⟨texts, -, htexts, -⟩ := emit_wrap_of_ok hfit ho
    exact ⟨texts, htexts⟩
  | _ => exact hone _

theorem outcome_of_command {config : Config} {op : Operation} {a : Arguments} {parts : List Part}
    (he : op.emit config a = .one (command parts)) (h : ∀ p ∈ parts, p.Writable) :
    ∃ o, (op.emit config a).outcome = .ok o := by
  obtain ⟨s, hs⟩ := command_of_writable h
  exact ⟨.same, by rw [he, hs]; rfl⟩

/-- The margin of a wrapped text and the positions of its lines are all that it writes. -/
theorem emit_wrap_of_short {config : Config} {a : Arguments}
    (hfit : Operation.Fits .writeTextAtWithWrap a)
    (hw : ∀ v ∈ Operation.written config a .writeTextAtWithWrap, v.Short) :
    ∃ o, (Operation.emit config a .writeTextAtWithWrap).outcome = .ok o := by
  obtain ⟨n, hn⟩ := hfit.holds .justification (.choice .justification) (by decide)
  have hlines : ∀ line ∈ a.placedLines, ∃ t,
      textField config (a .orientation) (a .justification) (a .x) line.1 line.2 = .ok t := by
    intro line hline
    have hwritten (v : Value) (hv : v = a.margin config ∨ v = line.1) : v.Short :=
      hw v (List.mem_flatMap.mpr ⟨line, hline, by simpa using hv⟩)
    exact textField_of_short hn (hwritten _ (Or.inl rfl)) (hwritten _ (Or.inr rfl)) line.2
  obtain ⟨texts, htexts⟩ := mapM_of_forall hlines
  have hemit := emit_wrap_eq_mapM config hfit
  rw [htexts] at hemit
  obtain ⟨-, y, ho⟩ := hemit
  exact ⟨.endingY y, ho⟩

/-- An integer that is too long to be written is the only thing that can go wrong in a call whose
arguments are of the declared types. -/
theorem emit_of_fits {config : Config} {op : Operation} {a : Arguments} (hfit : op.Fits a)
    (hw : ∀ v ∈ op.written config a, v.Short) :
    ∃ o, (op.emit config a).outcome = .ok o := by
  have hs (p : Parameter) (hat : op ≠ .writeTextAt) (hwrap : op ≠ .writeTextAtWithWrap)
      (hp : (op.fields.any fun f => f.parameter == p && f.type.isWritten) = true) : (a p).Short :=
    hw _ (Operation.mem_written hat hwrap hp)
  cases op with
  | start | finish | raw | reversePrint | endField | addVoidMessage =>
    exact ⟨.same, rfl⟩
  | setFont | setFontSize | setPosition | data | writeText | writeUnderline | barcodeFormat
  | simpleBarcode =>
    refine outcome_of_command rfl ?_
    simp [Part.writable_value, hs, Operation.fields, Field.integer, Field.text,
      FieldType.isWritten, origin, fieldData, underline, plainBarcodeField, closing]
  | drawBoxAt | drawBox =>
    obtain ⟨n, hn⟩ := hfit.holds .roundness (.choice .roundness) (by decide)
    have hbox := boxField_writable (a .color) (hs .width (by decide) (by decide) rfl)
      (hs .height (by decide) (by decide) rfl) (hs .lineThickness (by decide) (by decide) rfl) hn
      (hs .roundness (by decide) (by decide) rfl)
    refine outcome_of_command rfl ?_
    simpa [Part.writable_value, hs, Operation.fields, Field.integer, FieldType.isWritten, origin,
      closing, or_imp, forall_and] using hbox
  | drawHorizontalLineAt =>
    have hbox := boxField_writable (.member .black)
      (hs .width (by decide) (by decide) rfl) short_one
      (hs .lineThickness (by decide) (by decide) rfl) rfl (Value.short_member .unrounded)
    refine outcome_of_command rfl ?_
    simpa [Part.writable_value, hs, Operation.fields, Field.integer, FieldType.isWritten, origin,
      closing, or_imp, forall_and] using hbox
  | drawVerticalLineAt =>
    have hbox := boxField_writable (.member .black) short_one
      (hs .height (by decide) (by decide) rfl)
      (hs .lineThickness (by decide) (by decide) rfl) rfl (Value.short_member .unrounded)
    refine outcome_of_command rfl ?_
    simpa [Part.writable_value, hs, Operation.fields, Field.integer, FieldType.isWritten, origin,
      closing, or_imp, forall_and] using hbox
  | barcode =>
    obtain ⟨n, hn⟩ := hfit.holds .textPosition (.choice .barcodeLabelPosition) (by decide)
    have hcode := barcodeField_writable hn (hs .height (by decide) (by decide) rfl)
    refine outcome_of_command rfl ?_
    simpa [Part.writable_value, hs, Operation.fields, Field.integer, Field.text,
      FieldType.isWritten, origin, fieldData, closing, or_imp, forall_and] using hcode
  | addQrCodeAt =>
    obtain ⟨s, hdata⟩ := hfit.holds .data .text (by decide)
    refine outcome_of_command rfl ?_
    simp [Part.writable_value, hs, Operation.fields, Field.integer, FieldType.isWritten, origin,
      qrFormat, qrField, hdata, closing]
  | writeTextAt =>
    obtain ⟨n, hn⟩ := hfit.holds .justification (.choice .justification) (by decide)
    obtain ⟨s, hvalue⟩ := hfit.holds .value .text (by decide)
    simp only [Operation.written, List.forall_mem_cons] at hw
    obtain ⟨t, ht⟩ := textField_of_short hn hw.1 hw.2.1 s
    exact ⟨.same, by rw [emit_writeTextAt config hvalue, ht]; rfl⟩
  | writeTextAtWithWrap => exact emit_wrap_of_short hfit hw

end ThermalLabel
