import ThermalLabel.Proofs.Label.Plain

/-!
# Where the characters of a label come from

Whatever a fitting call emits is plain, a mark, or stands in one of the texts that the call was
given.  In particular no operation emits a line feed of its own.
-/
namespace ThermalLabel

/-- What commands are made of, apart from the texts in them. -/
def Text.isOwn : CodePoint → Bool
  | .char c => isPlain c || c == '^' || c == '~'
  | .half _ => false

namespace Arguments

/-- The code point is one that commands are made of, or stands in a text among the arguments. -/
def Source (a : Arguments) (c : CodePoint) : Prop :=
  Text.isOwn c = true ∨ ∃ p s, a p = .text s ∧ c ∈ s

variable {a : Arguments} {s : Text}

theorem source_of_isPlain {d : Char} (h : Text.isPlain d = true) : a.Source (.char d) :=
  Or.inl (by simp [Text.isOwn, h])

theorem source_of_plain (h : s.Plain) : ∀ c ∈ s, a.Source c := by
  intro c hc
  obtain ⟨d, rfl, hd⟩ := h c hc
  exact source_of_isPlain hd

theorem source_of_own (h : s.all Text.isOwn = true) : ∀ c ∈ s, a.Source c :=
  fun c hc => Or.inl (List.all_eq_true.mp h c hc)

theorem source_of_argument {p : Parameter} (h : a p = .text s) : ∀ c ∈ s, a.Source c :=
  fun _ hc => Or.inr ⟨p, s, h, hc⟩

end Arguments

/-- All that the part writes comes from the arguments, or is what commands are made of. -/
def Part.Sourced (a : Arguments) (p : Part) : Prop :=
  ∀ s, p.write = .ok s → ∀ c ∈ s, a.Source c

section Sourced

variable {a : Arguments} {s : Text} {parts : List Part}

namespace Part

theorem sourced_literal (h : ∀ c ∈ s, a.Source c) : Sourced a (.literal s) := by
  rintro _ ⟨⟩
  exact h

theorem sourced_own (h : s.all Text.isOwn = true) : Sourced a (.literal s) :=
  sourced_literal (Arguments.source_of_own h)

theorem sourced_plain (h : s.Plain) : Sourced a (.literal s) :=
  sourced_literal (Arguments.source_of_plain h)

theorem sourced_whole {v : Value} {n : Int} (h : v.whole? = some n) : Sourced a (.value v) := by
  intro s hs
  rcases Value.toText_of_isPlain (Value.isPlain_of_whole? h) hs with rfl | hplain
  · cases h
  · exact Arguments.source_of_plain hplain

theorem sourced_argument {p : Parameter} (h : (a p).IsPlain) : Sourced a (.value (a p)) := by
  intro s hs
  rcases Value.toText_of_isPlain h hs with htext | hplain
  · exact Arguments.source_of_argument htext
  · exact Arguments.source_of_plain hplain

theorem sourced_roundness (v : Value) : Sourced a (.token (Token.roundness v)) :=
  fun _ hs => Arguments.source_of_plain (Token.roundness_plain hs)

theorem sourced_textPosition (v : Value) :
    Sourced a (.token (Text.ofString <$> Token.textPosition v)) :=
  fun _ hs => Arguments.source_of_plain (Token.textPosition_plain hs)

end Part

theorem source_of_command (h : ∀ p ∈ parts, p.Sourced a) (hs : command parts = .ok s) :
    ∀ c ∈ s, a.Source c := by
  induction parts generalizing s with
  | nil =>
    cases hs
    simp
  | cons p rest ih =>
    rw [List.forall_mem_cons] at h
    obtain ⟨t, u, ht, hu, rfl⟩ := command_cons_eq_ok.mp hs
    exact List.forall_mem_append.mpr ⟨h.1 t ht, ih h.2 hu⟩

theorem source_of_encode (h : ∀ c ∈ s, a.Source c) : ∀ c ∈ Escape.encode s, a.Source c := by
  intro c hc
  rcases Escape.mem_encode hc with ⟨d, rfl, hd⟩ | hmem
  · exact Arguments.source_of_isPlain hd
  · exact h c hmem

theorem source_of_fontOrientation (v : Value) :
    ∀ c ∈ Text.ofString (Token.fontOrientation v), a.Source c := by
  rw [Token.fontOrientation, Text.ofString_append]
  exact List.forall_mem_append.mpr ⟨Arguments.source_of_own (by decide),
    Arguments.source_of_plain (Token.orientation_plain v)⟩

/-- A text at a position, with the block or the suffix that its justification gives. -/
theorem source_of_textField {config : Config} {y : Value} {t : Text} {w n m : Int}
    (hm : config.maxWidth.whole? = some w) (hj : (a .justification).whole? = some n)
    (hx : (a .x).IsPlain) (hy : y.whole? = some m) (hs : ∀ c ∈ s, a.Source c)
    (ht : textField config (a .orientation) (a .justification) (a .x) y s = .ok t) :
    ∀ c ∈ t, a.Source c := by
  have hletters := Part.sourced_literal (source_of_fontOrientation (a := a) (a .orientation))
  have htext := Part.sourced_literal (source_of_encode hs)
  have hposition : Part.Sourced a (.value y) := Part.sourced_whole hy
  rw [textField_eq hj] at ht
  split at ht
  · cases hwidth : config.maxWidth.toText with
    | error f => simp [hwidth, bind, Except.bind] at ht
    | ok width =>
      rw [hwidth] at ht
      have hblock : ∀ c ∈ Text.ofString "^FB" ++ (width ++ Text.ofString ",1,0,C,0"),
          a.Source c := by
        simp only [List.forall_mem_append]
        exact ⟨Arguments.source_of_own (by decide), Part.sourced_whole hm _ hwidth,
          Arguments.source_of_own (by decide)⟩
      refine source_of_command ?_ ht
      have hzero : Part.Sourced a (.value (.integer 0)) := Part.sourced_whole rfl
      simp (disch := decide) [Part.sourced_own, Part.sourced_literal hblock, hzero, hposition,
        hletters, htext]
  · refine source_of_command ?_ ht
    have hsuffix := Part.sourced_plain (a := a)
      (Token.pick_plain (by decide) (by decide) (a .justification) :
        (Text.ofString (Token.pick Token.justifications "" (a .justification))).Plain)
    simp (disch := decide) [Part.sourced_own, Part.sourced_argument hx, hposition, hsuffix,
      hletters, htext]

/-! ### Emissions -/

theorem source_of_mem_placedLines {line : Value × Text} (h : line ∈ a.placedLines) :
    ∀ c ∈ line.2, a.Source c := by
  obtain ⟨s, hs, hline⟩ := Arguments.text_of_mem_placedLines h
  intro c hc
  rcases hline c hc with rfl | hmem
  · exact Arguments.source_of_isPlain rfl
  · exact Arguments.source_of_argument hs c hmem

theorem source_of_one {r : Except Fault Text} (h : ∀ s, r = .ok s → ∀ c ∈ s, a.Source c)
    {t : Text} (ht : Value.text t ∈ (Emission.one r).fragments) : ∀ c ∈ t, a.Source c := by
  cases r with
  | ok s =>
    obtain rfl : t = s := by simpa [Emission.one, Emission.done] using ht
    exact h t rfl
  | error f => simp [Emission.one, Emission.fault] at ht

theorem source_of_written (h : ∀ p ∈ parts, p.Sourced a) {t : Text}
    (ht : Value.text t ∈ (Emission.one (command parts)).fragments) : ∀ c ∈ t, a.Source c :=
  source_of_one (fun _ hs => source_of_command h hs) ht

theorem sourced_append {others : List Part} (h : ∀ p ∈ parts, p.Sourced a)
    (h' : ∀ p ∈ others, p.Sourced a) : ∀ p ∈ parts ++ others, p.Sourced a :=
  List.forall_mem_append.mpr ⟨h, h'⟩

theorem sourced_origin {x y : Value} (hx : Part.Sourced a (.value x))
    (hy : Part.Sourced a (.value y)) : ∀ p ∈ origin x y, p.Sourced a := by
  simp (disch := decide) [origin, Part.sourced_own, hx, hy]

theorem sourced_fieldData {value : Value} (hv : Part.Sourced a (.value value)) :
    ∀ p ∈ fieldData value, p.Sourced a := by
  simp (disch := decide) [fieldData, Part.sourced_own, hv]

theorem sourced_closing : ∀ p ∈ closing, p.Sourced a := by
  simp (disch := decide) [closing, Part.sourced_own]

theorem sourced_boxField {width height thickness : Value} (color roundness : Value)
    (hw : Part.Sourced a (.value width)) (hh : Part.Sourced a (.value height))
    (ht : Part.Sourced a (.value thickness)) :
    ∀ p ∈ boxField width height thickness color roundness, p.Sourced a := by
  simp (disch := decide) [boxField, Part.sourced_own, hw, hh, ht, Part.sourced_roundness,
    Part.sourced_plain (Token.color_plain color)]

/-- A box at a position, and every line, which is a box as well. -/
theorem sourced_boxAt {x y width height thickness : Value} (color roundness : Value)
    (hx : Part.Sourced a (.value x)) (hy : Part.Sourced a (.value y))
    (hw : Part.Sourced a (.value width)) (hh : Part.Sourced a (.value height))
    (ht : Part.Sourced a (.value thickness)) :
    ∀ p ∈ origin x y ++ boxField width height thickness color roundness ++ closing,
      p.Sourced a :=
  sourced_append (sourced_append (sourced_origin hx hy) (sourced_boxField _ _ hw hh ht))
    sourced_closing

theorem sourced_underline {length c1 c2 : Value} (hl : Part.Sourced a (.value length))
    (h1 : Part.Sourced a (.value c1)) (h2 : Part.Sourced a (.value c2)) :
    ∀ p ∈ underline length c1 c2, p.Sourced a := by
  simp (disch := decide) [underline, Part.sourced_own, hl, h1, h2]

theorem sourced_barcodeField (hh : Part.Sourced a (.value (a .height))) :
    ∀ p ∈ barcodeField a, p.Sourced a := by
  simp (disch := decide) [barcodeField, Part.sourced_own, hh, Part.sourced_textPosition,
    Part.sourced_plain (Token.orientation_plain _), Part.sourced_plain (Token.yesNo_plain _),
    Part.sourced_plain (Token.barcodeMode_plain _)]

theorem sourced_plainBarcodeField : ∀ p ∈ plainBarcodeField, p.Sourced a := by
  simp (disch := decide) [plainBarcodeField, Part.sourced_own]

theorem sourced_qrFormat : ∀ p ∈ qrFormat, p.Sourced a := by
  simp (disch := decide) [qrFormat, Part.sourced_own]

theorem sourced_qrField (hs : ∀ c ∈ s, a.Source c) : ∀ p ∈ qrField (.text s), p.Sourced a := by
  simp (disch := decide) [qrField, Part.sourced_own, Part.sourced_literal hs]

/-- A fitting call that does not fail emits nothing but what commands are made of and what stands in
its texts. -/
theorem source_of_emit {config : Config} {op : Operation} {o : Outcome} {w : Int}
    (hm : config.maxWidth.whole? = some w) (hfit : op.Fits a)
    (ho : (op.emit config a).outcome = .ok o) {t : Text}
    (ht : Value.text t ∈ (op.emit config a).fragments) : ∀ c ∈ t, a.Source c := by
  have hargument (p : Parameter)
      (hp : (op.fields.any fun f => f.parameter == p && f.type.isPlain) = true) :=
    Part.sourced_argument (hfit.isPlain p hp)
  have hfixed (texts : List Text) (hown : ∀ s ∈ texts, s.all Text.isOwn = true)
      (ht : Value.text t ∈ texts.map Value.text) : ∀ c ∈ t, a.Source c := by
    obtain ⟨s, hs, heq⟩ := List.mem_map.mp ht
    cases heq
    exact Arguments.source_of_own (hown t hs)
  cases op with
  | start => exact hfixed ["^XA"] (by decide) ht
  | finish => exact hfixed ["~JSN", "^XZ"] (by decide) ht
  | reversePrint => exact hfixed ["^FR"] (by decide) ht
  | endField => exact hfixed [fieldEnd] (by decide) ht
  | addVoidMessage => exact hfixed voidTexts (by decide +kernel) (voidFragments_eq ▸ ht)
  | raw =>
    have hvalue : a .value = .text t := (List.mem_singleton.mp ht).symm
    exact Arguments.source_of_argument hvalue
  | writeTextAt =>
    obtain ⟨n, hn⟩ := hfit.holds .justification (.choice .justification) (by decide)
    obtain ⟨s, hs⟩ := hfit.holds .value .text (by decide)
    obtain ⟨m, hy⟩ := hfit.holds .y .integer (by decide)
    rw [emit_writeTextAt config hs] at ht
    refine source_of_one (fun t ht => ?_) ht
    exact source_of_textField hm hn (hfit.isPlain .x rfl) hy (Arguments.source_of_argument hs) ht
  | writeTextAtWithWrap =>
    obtain ⟨n, hn⟩ := hfit.holds .justification (.choice .justification) (by decide)
    obtain ⟨m, hy⟩ := hfit.holds .y .integer (by decide)
    obtain ⟨texts, hmap, hfragments, -⟩ := emit_wrap_of_ok hfit ho
    rw [hfragments, List.mem_map_of_injective fun _ _ => Value.text.inj] at ht
    obtain ⟨line, hline, hwritten⟩ := exists_of_mem_mapM hmap ht
    obtain ⟨p, hp⟩ := Arguments.whole_of_mem_placedLines hy hline
    exact source_of_textField hm hn (hfit.isPlain .x rfl) hp (source_of_mem_placedLines hline)
      hwritten
  | setFont | setFontSize | barcodeFormat =>
    refine source_of_written ?_ ht
    simp (disch := first | decide | rfl) [Part.sourced_own, hargument]
  | setPosition =>
    exact source_of_written (sourced_origin (hargument .x rfl) (hargument .y rfl)) ht
  | data | writeText => exact source_of_written (sourced_fieldData (hargument .value rfl)) ht
  | drawBoxAt =>
    exact source_of_written (sourced_boxAt _ _ (hargument .x rfl) (hargument .y rfl)
      (hargument .width rfl) (hargument .height rfl) (hargument .lineThickness rfl)) ht
  | drawBox =>
    exact source_of_written (sourced_boxField _ _ (hargument .width rfl) (hargument .height rfl)
      (hargument .lineThickness rfl)) ht
  | drawHorizontalLineAt =>
    exact source_of_written (sourced_boxAt _ _ (hargument .x rfl) (hargument .y rfl)
      (hargument .width rfl) (Part.sourced_whole (v := .integer 1) rfl)
      (hargument .lineThickness rfl)) ht
  | drawVerticalLineAt =>
    exact source_of_written (sourced_boxAt _ _ (hargument .x rfl) (hargument .y rfl)
      (Part.sourced_whole (v := .integer 1) rfl) (hargument .height rfl)
      (hargument .lineThickness rfl)) ht
  | writeUnderline =>
    have horigin := sourced_origin (hargument .x rfl) (hargument .y rfl)
    have hline := sourced_underline (hargument .length rfl) (hargument .c1 rfl) (hargument .c2 rfl)
    exact source_of_written (sourced_append (sourced_append horigin hline) sourced_closing) ht
  | barcode =>
    have horigin := sourced_origin (hargument .x rfl) (hargument .y rfl)
    have hcode := sourced_append horigin (sourced_barcodeField (hargument .height rfl))
    have hdata := sourced_fieldData (hargument .value rfl)
    exact source_of_written (sourced_append (sourced_append hcode hdata) sourced_closing) ht
  | simpleBarcode =>
    have horigin := sourced_origin (hargument .x rfl) (hargument .y rfl)
    have hcode := sourced_append horigin sourced_plainBarcodeField
    have hdata := sourced_fieldData (hargument .value rfl)
    exact source_of_written (sourced_append (sourced_append hcode hdata) sourced_closing) ht
  | addQrCodeAt =>
    have horigin := sourced_origin (hargument .x rfl) (hargument .y rfl)
    obtain ⟨content, hcontent⟩ := hfit.holds .data .text (by decide)
    have hqr := sourced_qrField (Arguments.source_of_argument hcontent)
    rw [← hcontent] at hqr
    have hcode := sourced_append (sourced_append sourced_qrFormat horigin) hqr
    exact source_of_written (sourced_append hcode sourced_closing) ht

end Sourced

end ThermalLabel
