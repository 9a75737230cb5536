import ThermalLabel.Proofs.Label.Emission
import ThermalLabel.Proofs.Label.Unmarked

/-!
# Commands of emissions

`Operation.codes` is the list of the commands that an operation emits.  It depends on the operation
alone, on whether its text is centred, and on the number of lines that are placed.  A call whose
texts hold no marks emits these commands and no others, whatever the texts are.
-/
namespace ThermalLabel

open Text (Unmarked Adds Commands)

/-- The commands of a text at a position. -/
def textCodes (centred : Bool) : List Text :=
  ["FO"] ++ (if centred then ["FB"] else []) ++ ["AO", "FH", "FD", "FS"]

/-- The commands of an operation, given whether its text is centred and how many lines it has. -/
def Operation.codes (centred : Bool) (lines : Nat) : Operation → List Text
  | .start => ["XA"]
  | .finish => ["JS", "XZ"]
  | .raw => []
  | .reversePrint => ["FR"]
  | .setFont | .setFontSize => ["CF"]
  | .setPosition => ["FO"]
  | .endField => ["FS"]
  | .data | .writeText => ["FD"]
  | .drawBoxAt | .drawHorizontalLineAt | .drawVerticalLineAt | .writeUnderline => ["FO", "GB", "FS"]
  | .drawBox => ["GB"]
  | .writeTextAt => textCodes centred
  | .writeTextAtWithWrap => (List.replicate lines (textCodes centred)).flatten
  | .barcodeFormat => ["BY"]
  | .barcode | .simpleBarcode => ["FO", "BC", "FD", "FS"]
  | .addQrCodeAt => ["BY", "FO", "BQ", "FD", "FS"]
  | .addVoidMessage => ["FO", "GD", "FS"] ++ (List.replicate 8 ["AD", "FO", "FD", "FS"]).flatten

/-- The part holds no marks. -/
def Part.Unmarked (p : Part) : Prop :=
  ∀ t, p.write = .ok t → t.Unmarked

namespace Part

theorem unmarked_literal {s : Text} (h : s.Unmarked) : Unmarked (.literal s) := by
  rintro t ⟨⟩
  exact h

@[simp] theorem unmarked_comma : Unmarked (.literal ",") :=
  unmarked_literal (by decide)

theorem unmarked_value {v : Value} (h : v.Unmarked) : Unmarked (.value v) :=
  fun _ ht => Value.toText_unmarked h ht

end Part

/-- The parts add commands of the given codes, if they can be written. -/
def PartsAdd (cs : List Text) (parts : List Part) : Prop :=
  ∀ s, command parts = .ok s → Adds cs s

namespace PartsAdd

variable {cs ds : List Text} {parts others : List Part}

theorem nil : PartsAdd [] [] := by
  rintro s ⟨⟩ rest
  rfl

theorem cons {t : Text} (ht : Adds cs t) (h : PartsAdd ds parts) :
    PartsAdd (cs ++ ds) (.literal t :: parts) := by
  intro s hs
  obtain ⟨_, u, ⟨⟩, hu, rfl⟩ := command_cons_eq_ok.mp hs
  exact ht.append (h u hu)

theorem cons_unmarked {p : Part} (hp : p.Unmarked) (h : PartsAdd cs parts) :
    PartsAdd cs (p :: parts) := by
  intro s hs
  obtain ⟨t, u, ht, hu, rfl⟩ := command_cons_eq_ok.mp hs
  exact (hp t ht).adds.append (h u hu)

theorem of_unmarked (h : ∀ p ∈ parts, p.Unmarked) : PartsAdd [] parts := by
  induction parts with
  | nil => exact nil
  | cons p rest ih =>
    exact cons_unmarked (h p List.mem_cons_self) (ih fun q hq => h q (List.mem_cons_of_mem _ hq))

/-- One command: its mark and its letters, and then parts without marks. -/
theorem one {t : Text} (ht : Adds cs t) (h : ∀ p ∈ parts, p.Unmarked) :
    PartsAdd cs (.literal t :: parts) := by
  simpa using cons ht (of_unmarked h)

theorem append (h : PartsAdd cs parts) (h' : PartsAdd ds others) :
    PartsAdd (cs ++ ds) (parts ++ others) := by
  intro s hs
  obtain ⟨t, u, ht, hu, rfl⟩ : ∃ t u, command parts = .ok t ∧ command others = .ok u ∧
      s = t ++ u := by
    clear h
    induction parts generalizing s with
    | nil => exact ⟨[], s, rfl, hs, rfl⟩
    | cons p rest ih =>
      obtain ⟨t, u, ht, hu, rfl⟩ := command_cons_eq_ok.mp hs
      obtain ⟨t', u', ht', hu', rfl⟩ := ih u hu
      exact ⟨t ++ t', u', command_cons_eq_ok.mpr ⟨t, t', ht, ht', rfl⟩, hu',
        (List.append_assoc ..).symm⟩
  exact (h t ht).append (h' u hu)

/-- Parts that start with a mark are made of their commands alone. -/
theorem commands {t : Text} (h : PartsAdd cs (.literal t :: parts)) (ht : t.opens = true) {s : Text}
    (hs : command (.literal t :: parts) = .ok s) : Commands cs s := by
  refine ⟨?_, h s hs⟩
  obtain ⟨_, u, ⟨⟩, -, rfl⟩ := command_cons_eq_ok.mp hs
  exact Text.opens_append ht

end PartsAdd

theorem adds_code (mark a b : Char) (hmark : Text.isMark mark = true) (ha : Text.isMark a = false)
    (hb : Text.isMark b = false) : Adds [[.char a, .char b]] [.char mark, .char a, .char b] := by
  intro rest
  simp [Text.commandCodes, hmark, ha, hb]

section Fields

variable {x y width height thickness color roundness value : Value} {n : Int}

theorem origin_adds (hx : x.Unmarked) (hy : y.Unmarked) : PartsAdd ["FO"] (origin x y) :=
  .one (adds_code '^' 'F' 'O' rfl rfl rfl) (by
    simp [Part.unmarked_value hx, Part.unmarked_value hy])

theorem fieldData_adds (hv : value.Unmarked) : PartsAdd ["FD"] (fieldData value) :=
  .one (adds_code '^' 'F' 'D' rfl rfl rfl) (by simp [Part.unmarked_value hv])

theorem closing_adds : PartsAdd ["FS"] closing :=
  .one (adds_code '^' 'F' 'S' rfl rfl rfl) (by simp)

theorem boxField_adds (hw : width.Unmarked) (hh : height.Unmarked) (ht : thickness.Unmarked) :
    PartsAdd ["GB"] (boxField width height thickness color roundness) := by
  have hr : Part.Unmarked (.token (Token.roundness roundness)) :=
    fun _ h => (Token.roundness_plain h).unmarked
  refine .one (adds_code '^' 'G' 'B' rfl rfl rfl) ?_
  simp [Part.unmarked_value hw, Part.unmarked_value hh, Part.unmarked_value ht, hr,
    Part.unmarked_literal (Token.color_plain color).unmarked]

/-- A box at a position, and every line, which is a box as well. -/
theorem boxAt_adds (hx : x.Unmarked) (hy : y.Unmarked) (hw : width.Unmarked) (hh : height.Unmarked)
    (ht : thickness.Unmarked) :
    PartsAdd ["FO", "GB", "FS"]
      (origin x y ++ boxField width height thickness color roundness ++ closing) :=
  ((origin_adds hx hy).append (boxField_adds hw hh ht)).append closing_adds

theorem underline_adds {length c1 c2 : Value} (hl : length.Unmarked) (h1 : c1.Unmarked)
    (h2 : c2.Unmarked) : PartsAdd ["GB"] (underline length c1 c2) :=
  .one (adds_code '^' 'G' 'B' rfl rfl rfl) (by
    simp [Part.unmarked_value hl, Part.unmarked_value h1, Part.unmarked_value h2])

theorem barcodeField_adds {a : Arguments} (hh : (a .height).Unmarked) :
    PartsAdd ["BC"] (barcodeField a) := by
  have hp : Part.Unmarked (.token (Text.ofString <$> Token.textPosition (a .textPosition))) :=
    fun _ h => (Token.textPosition_plain h).unmarked
  refine .one (adds_code '^' 'B' 'C' rfl rfl rfl) ?_
  simp [Part.unmarked_value hh, hp, Part.unmarked_literal (Token.orientation_plain _).unmarked,
    Part.unmarked_literal (Token.yesNo_plain _).unmarked,
    Part.unmarked_literal (Token.barcodeMode_plain _).unmarked]

theorem plainBarcodeField_adds : PartsAdd ["BC"] plainBarcodeField :=
  .one (adds_code '^' 'B' 'C' rfl rfl rfl) (by simp)

theorem qrFormat_adds : PartsAdd ["BY"] qrFormat :=
  .one (t := "^BY2,2,0") (fun _ => rfl) (by simp)

theorem qrField_adds {s : Text} (hs : s.Unmarked) : PartsAdd ["BQ", "FD"] (qrField (.text s)) :=
  .one (t := "^BQN,2,5^FDLA,") (fun _ => rfl) (by simp [Part.unmarked_literal hs])

theorem fontOrientation_adds (v : Value) : Adds ["AO"] (Text.ofString (Token.fontOrientation v)) := by
  rw [Token.fontOrientation, Text.ofString_append]
  exact (adds_code '^' 'A' 'O' rfl rfl rfl).append (Token.orientation_plain v).unmarked.adds

theorem block_adds {width : Text} (h : width.Unmarked) :
    Adds ["FB"] (Text.ofString "^FB" ++ width ++ Text.ofString ",1,0,C,0") :=
  ((adds_code '^' 'F' 'B' rfl rfl rfl).append h.adds).append (Unmarked.adds (by decide))

/-- A text at a position has a block command if it is centred. -/
theorem textField_commands {config : Config} {a : Arguments} (hm : config.maxWidth.Unmarked)
    (hj : (a .justification).whole? = some n) (hx : (a .x).Unmarked) (hy : y.Unmarked) {s : Text}
    (hs : s.Unmarked) {t : Text}
    (ht : textField config (a .orientation) (a .justification) (a .x) y s = .ok t) :
    Commands (textCodes a.isCentred) t := by
  have hdata : Adds ["FH", "FD"] (Text.ofString "^FH^FD") := fun _ => rfl
  have hletters : PartsAdd ["AO", "FH", "FD", "FS"]
      [Token.fontOrientation (a .orientation), "^FH^FD", Escape.encode s, fieldEnd] :=
    .cons (fontOrientation_adds _) <| .cons hdata <|
      .cons_unmarked (Part.unmarked_literal (Escape.encode_unmarked hs)) closing_adds
  have hcomma : (Part.literal ",").Unmarked := Part.unmarked_comma
  rw [textField_eq hj] at ht
  cases hc : a.isCentred with
  | true =>
    rw [if_pos hc] at ht
    cases hwidth : config.maxWidth.toText with
    | error f => simp [hwidth, bind, Except.bind] at ht
    | ok width =>
      rw [hwidth] at ht
      refine PartsAdd.commands (.cons (adds_code '^' 'F' 'O' rfl rfl rfl) ?_) rfl ht
      exact .cons_unmarked (Part.unmarked_value trivial) <| .cons_unmarked hcomma <|
        .cons_unmarked (Part.unmarked_value hy) <|
          .cons (block_adds (Value.toText_unmarked hm hwidth)) hletters
  | false =>
    rw [if_neg (by simp [hc])] at ht
    refine PartsAdd.commands (.cons (adds_code '^' 'F' 'O' rfl rfl rfl) ?_) rfl ht
    exact .cons_unmarked (Part.unmarked_value hx) <| .cons_unmarked hcomma <|
      .cons_unmarked (Part.unmarked_value hy) <|
        .cons_unmarked (Part.unmarked_literal (Token.pick_plain (by decide) (by decide) _).unmarked)
          hletters

end Fields

/-- The fragments are made of commands, together those of the given codes. -/
def Spells (fragments : List Value) (cs : List Text) : Prop :=
  ∃ groups texts, fragments = texts.map .text ∧ List.Forall₂ Commands groups texts ∧
    groups.flatten = cs

theorem Spells.append {fragments others : List Value} {cs ds : List Text} (h : Spells fragments cs)
    (h' : Spells others ds) : Spells (fragments ++ others) (cs ++ ds) := by
  obtain ⟨groups, texts, rfl, hall, rfl⟩ := h
  obtain ⟨groups', texts', rfl, hall', rfl⟩ := h'
  exact ⟨groups ++ groups', texts ++ texts', by simp, List.rel_append hall hall', by simp⟩

theorem spells_of_command {cs : List Text} {t : Text} {parts : List Part} {o : Outcome}
    (h : PartsAdd cs (.literal t :: parts)) (ht : t.opens = true)
    (ho : (Emission.one (command (.literal t :: parts))).outcome = .ok o) :
    Spells (Emission.one (command (.literal t :: parts))).fragments cs := by
  cases hs : command (.literal t :: parts) with
  | error f =>
    rw [hs] at ho
    cases ho
  | ok s => exact ⟨[cs], [s], rfl, .cons (h.commands ht hs) .nil, by simp⟩

/-- Arguments that are numbers or texts are unmarked if all texts are. -/
theorem Operation.Fits.unmarked {op : Operation} {a : Arguments} (h : op.Fits a)
    (htexts : ∀ p s, a p = .text s → s.Unmarked) (p : Parameter)
    (hp : (op.fields.any fun f => f.parameter == p && f.type.isPlain) = true) :
    (a p).Unmarked := by
  have hplain := h.isPlain p hp
  cases hv : a p with
  | text s => exact htexts p s hv
  | integer n | member m | double x => trivial
  | null | flag b | decimal d | list items | object fields =>
    rw [hv] at hplain
    exact False.elim hplain

theorem unmarked_of_mem_placedLines {a : Arguments} (htexts : ∀ p s, a p = .text s → s.Unmarked)
    {line : Value × Text} (h : line ∈ a.placedLines) : line.2.Unmarked := by
  obtain ⟨s, hs, hline⟩ := Arguments.text_of_mem_placedLines h
  intro c hc
  rcases hline c hc with rfl | hmem
  · rfl
  · exact htexts _ s hs c hmem

theorem voidText_commands (y : Nat) {letter : String} (h : Unmarked (Text.ofString letter)) :
    Commands ["AD", "FO", "FD", "FS"] (voidText y letter) := by
  simp only [voidText, Text.ofString_append]
  have hhead : Commands ["AD", "FO"] (Text.ofString "^ADN,60,40^FO300," ++ Text.ofNat y) :=
    Commands.append_unmarked ⟨rfl, fun _ => rfl⟩ ((Text.plain_ofNat y).unmarked)
  have hdata : Adds ["FD"] (Text.ofString "^FD" ++ Text.ofString letter) :=
    (adds_code '^' 'F' 'D' rfl rfl rfl).append h.adds
  have hend : Adds ["FS"] (Text.ofString fieldEnd) := fun _ => rfl
  have hall := (hhead.adds.append hdata).append hend
  simp only [List.append_assoc] at hall ⊢
  exact ⟨rfl, hall⟩

theorem voidTexts_commands :
    List.Forall₂ Commands (["FO", "GD", "FS"] :: List.replicate 8 ["AD", "FO", "FD", "FS"])
      voidTexts := by
  refine .cons ⟨rfl, fun _ => rfl⟩ ?_
  rw [List.forall₂_map_right_iff]
  have hletters : ∀ entry ∈ voidLetters, Unmarked (Text.ofString entry.2) := by decide
  have hall : ∀ entry ∈ voidLetters,
      Commands ["AD", "FO", "FD", "FS"] (voidText entry.1 entry.2) :=
    fun entry hentry => voidText_commands entry.1 (hletters entry hentry)
  simpa [voidLetters, List.replicate] using hall

/-- Every placed line has the commands of a text at a position. -/
theorem placedLines_commands {config : Config} {a : Arguments} {n m : Int} {texts : List Text}
    (hm : config.maxWidth.Unmarked) (hn : (a .justification).whole? = some n)
    (hx : (a .x).Unmarked) (hy : (a .y).whole? = some m)
    (htexts : ∀ p s, a p = .text s → s.Unmarked)
    (h : a.placedLines.mapM (fun line =>
      textField config (a .orientation) (a .justification) (a .x) line.1 line.2) = .ok texts) :
    List.Forall₂ Commands (List.replicate a.placedLines.length (textCodes a.isCentred)) texts := by
  rw [← List.map_const', List.forall₂_map_left_iff]
  refine forall₂_of_mapM_eq_ok h fun line hline t ht => ?_
  obtain ⟨p, hp⟩ := Arguments.whole_of_mem_placedLines hy hline
  exact textField_commands hm hn hx (Value.unmarked_of_whole? hp)
    (unmarked_of_mem_placedLines htexts hline) ht

/-- A call that does not fail and holds no marks in its texts emits the commands of its operation.
A call of `raw` may emit any text at all. -/
theorem emit_spells {config : Config} {op : Operation} {a : Arguments} {o : Outcome}
    (hm : config.maxWidth.Unmarked) (hfit : op.Fits a) (hraw : op ≠ .raw)
    (htexts : ∀ p s, a p = .text s → s.Unmarked) (ho : (op.emit config a).outcome = .ok o) :
    Spells (op.emit config a).fragments (op.codes a.isCentred a.placedLines.length) := by
  have hplain := hfit.unmarked htexts
  cases op with
  | raw => exact absurd rfl hraw
  | start => exact ⟨[["XA"]], ["^XA"], rfl, .cons ⟨rfl, fun _ => rfl⟩ .nil, rfl⟩
  | finish =>
    exact ⟨[["JS"], ["XZ"]], ["~JSN", "^XZ"], rfl,
      .cons ⟨rfl, fun _ => rfl⟩ (.cons ⟨rfl, fun _ => rfl⟩ .nil), rfl⟩
  | reversePrint => exact ⟨[["FR"]], ["^FR"], rfl, .cons ⟨rfl, fun _ => rfl⟩ .nil, rfl⟩
  | endField => exact ⟨[["FS"]], ["^FS"], rfl, .cons ⟨rfl, fun _ => rfl⟩ .nil, rfl⟩
  | setFont =>
    refine spells_of_command (.one (adds_code '^' 'C' 'F' rfl rfl rfl) ?_) rfl ho
    simp [Part.unmarked_value (hplain .font rfl), Part.unmarked_value (hplain .height rfl)]
  | setFontSize =>
    refine spells_of_command (.one (adds_code '^' 'C' 'F' rfl rfl rfl) ?_) rfl ho
    simp [Part.unmarked_value (hplain .font rfl), Part.unmarked_value (hplain .height rfl),
      Part.unmarked_value (hplain .width rfl)]
  | barcodeFormat =>
    refine spells_of_command (.one (adds_code '^' 'B' 'Y' rfl rfl rfl) ?_) rfl ho
    simp [Part.unmarked_value (hplain .moduleWidth rfl), Part.unmarked_value (hplain .ratio rfl),
      Part.unmarked_value (hplain .barHeight rfl)]
  | setPosition =>
    exact spells_of_command (origin_adds (hplain .x rfl) (hplain .y rfl)) rfl ho
  | data | writeText =>
    exact spells_of_command (fieldData_adds (hplain .value rfl)) rfl ho
  | drawBoxAt =>
    exact spells_of_command (boxAt_adds (hplain .x rfl) (hplain .y rfl)
      (hplain .width rfl) (hplain .height rfl) (hplain .lineThickness rfl)) rfl ho
  | drawBox =>
    exact spells_of_command (boxField_adds (hplain .width rfl) (hplain .height rfl)
      (hplain .lineThickness rfl)) rfl ho
  | drawHorizontalLineAt =>
    have hone : Value.Unmarked (.integer 1) := trivial
    exact spells_of_command (boxAt_adds (hplain .x rfl) (hplain .y rfl) (hplain .width rfl) hone
      (hplain .lineThickness rfl)) rfl ho
  | drawVerticalLineAt =>
    have hone : Value.Unmarked (.integer 1) := trivial
    exact spells_of_command (boxAt_adds (hplain .x rfl) (hplain .y rfl) hone (hplain .height rfl)
      (hplain .lineThickness rfl)) rfl ho
  | writeUnderline =>
    exact spells_of_command (((origin_adds (hplain .x rfl) (hplain .y rfl)).append
      (underline_adds (hplain .length rfl) (hplain .c1 rfl) (hplain .c2 rfl))).append
        closing_adds) rfl ho
  | barcode =>
    exact spells_of_command ((((origin_adds (hplain .x rfl) (hplain .y rfl)).append
      (barcodeField_adds (hplain .height rfl))).append
        (fieldData_adds (hplain .value rfl))).append closing_adds) rfl ho
  | simpleBarcode =>
    exact spells_of_command ((((origin_adds (hplain .x rfl) (hplain .y rfl)).append
      plainBarcodeField_adds).append (fieldData_adds (hplain .value rfl))).append closing_adds) rfl
        ho
  | addQrCodeAt =>
    obtain ⟨s, hs⟩ := hfit.holds .data .text (by decide)
    have hqr := qrField_adds (htexts _ s hs)
    rw [← hs] at hqr
    exact spells_of_command (((qrFormat_adds.append
      (origin_adds (hplain .x rfl) (hplain .y rfl))).append hqr).append closing_adds) rfl ho
  | addVoidMessage => exact ⟨_, voidTexts, voidFragments_eq, voidTexts_commands, rfl⟩
  | writeTextAt =>
    obtain ⟨n, hn⟩ := hfit.holds .justification (.choice .justification) (by decide)
    obtain ⟨s, hs⟩ := hfit.holds .value .text (by decide)
    rw [emit_writeTextAt config hs] at ho ⊢
    cases ht : textField config (a .orientation) (a .justification) (a .x) (a .y) s with
    | error f =>
      rw [ht] at ho
      cases ho
    | ok t =>
      have hcommands := textField_commands hm hn (hplain .x rfl) (hplain .y rfl) (htexts _ s hs) ht
      exact ⟨[_], [t], rfl, .cons hcommands .nil, by simp [Operation.codes]⟩
  | writeTextAtWithWrap =>
    obtain ⟨n, hn⟩ := hfit.holds .justification (.choice .justification) (by decide)
    obtain ⟨m, hy⟩ := hfit.holds .y .integer (by decide)
    obtain ⟨texts, hmap, hfragments, -⟩ := emit_wrap_of_ok hfit ho
    exact ⟨_, texts, hfragments,
      placedLines_commands hm hn (hplain .x rfl) hy htexts hmap, rfl⟩

end ThermalLabel
