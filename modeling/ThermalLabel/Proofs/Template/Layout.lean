import ThermalLabel.Proofs.Label.Blocks
import ThermalLabel.Proofs.Label.Fields
import ThermalLabel.Proofs.Script.Commands
import ThermalLabel.Proofs.Template.Agreement
import ThermalLabel.Proofs.Value.Unbroken

/-!
# The layout of the packaged template

Whatever texts without marks the packaged template is given, its label is one label, from its start
to its end, and its fields stand one behind the other.  A description takes at most five lines above
the barcode.
-/
namespace ThermalLabel

open Text (PlacedField Prints PrintsAll Unmarked IsCommand endedBy)

namespace Template

/-! ### The label as commands -/

/-- The heights at which the lines of a description stand. -/
def descriptionHeights : List Nat :=
  [110, 140, 170, 200, 230]

/-- The lines of a description with their heights.  There are no more lines than heights. -/
def placedDescription (s : Text) : List (Nat × Text) :=
  descriptionHeights.zip (Wrap.lineTexts 40 s)

def lineFragment (line : Nat × Text) : List Text :=
  ["^FO30," ++ Text.ofNat line.1 ++ ",0", "^AON", "^FH", "^FD" ++ Escape.encode line.2, "^FS"]

def lineField (line : Nat × Text) : PlacedField :=
  ⟨"30," ++ Text.ofNat line.1 ++ ",0", Escape.encode line.2⟩

def titleFragment (width title : Text) : List Text :=
  ["^FO0,30", "^FB" ++ width ++ ",1,0,C,0", "^AON", "^FH", "^FD" ++ Escape.encode title, "^FS"]

def frameFragments (width title : Text) : List (List Text) :=
  [["^FO10,10", "^GB690,380,3,B,2", "^FS"], ["^CF0,40"], titleFragment width title,
    ["^FO20,90", "^GB670,1,2,B,0", "^FS"], ["^CF0,25"]]

def frameFields (title : Text) : List PlacedField :=
  [⟨"10,10", ""⟩, ⟨"0,30", Escape.encode title⟩, ⟨"20,90", ""⟩]

def barcodeFragments (code : Text) : List (List Text) :=
  if code = [] then [] else [["^BY2,3.0,60"], ["^FO30,280", "^BC", "^FD" ++ code, "^FS"]]

def barcodeFields (code : Text) : List PlacedField :=
  if code = [] then [] else [⟨"30,280", code⟩]

def contentFragment (content : Text) : List Text :=
  ["^BY2,2,0", "^FO560,250", "^BQN,2,5", "^FDLA," ++ content, "^FS"]

def contentField (content : Text) : PlacedField :=
  ⟨"560,250", "LA," ++ content⟩

def finishFragments : List (List Text) :=
  [["~JSN"], ["^XZ"]]

/-- The label of the packaged template, as the commands of its fragments. -/
def packagedFragments (width : Text) (texts : PackagedTexts) : List (List Text) :=
  ["^XA"] :: (frameFragments width texts.title ++
    ((placedDescription texts.description).map lineFragment ++
      (barcodeFragments texts.code ++ ([contentFragment texts.content] ++ finishFragments))))

/-- The fields of the label of the packaged template. -/
def packagedFields (texts : PackagedTexts) : List PlacedField :=
  frameFields texts.title ++ ((placedDescription texts.description).map lineField ++
    (barcodeFields texts.code ++ [contentField texts.content]))

/-! ### Its fields -/

/-- None of the texts starts a command. -/
structure PackagedTexts.Unmarked (texts : PackagedTexts) : Prop where
  title : texts.title.Unmarked
  description : texts.description.Unmarked
  code : texts.code.Unmarked
  content : texts.content.Unmarked

variable {width title code content separator : Text} {texts : PackagedTexts}

theorem prints_line {line : Nat × Text} (h : line.2.Unmarked) :
    Prints (lineFragment line) [lineField line] := by
  refine ⟨?_, rfl⟩
  have hplace : IsCommand ("^FO30," ++ Text.ofNat line.1 ++ ",0") := by
    refine IsCommand.append (IsCommand.append (by decide) ?_) (by decide)
    exact (Text.plain_ofNat line.1).unmarked
  have hdata : IsCommand ("^FD" ++ Escape.encode line.2) :=
    IsCommand.append (by decide) (Escape.encode_unmarked h)
  simp only [lineFragment, List.forall_mem_cons]
  exact ⟨hplace, by decide, by decide, hdata, by decide, List.forall_mem_nil _⟩

theorem prints_lines {lines : List (Nat × Text)} (h : ∀ line ∈ lines, line.2.Unmarked) :
    PrintsAll (lines.map lineFragment) (lines.map lineField) := by
  induction lines with
  | nil => exact .nil
  | cons line rest ih =>
    rw [List.forall_mem_cons] at h
    exact .cons (prints_line h.1) (ih h.2)

theorem unmarked_of_mem_placedDescription {s : Text} (h : s.Unmarked) :
    ∀ line ∈ placedDescription s, line.2.Unmarked := by
  intro line hline c hc
  rcases Wrap.mem_of_mem_lineTexts (List.of_mem_zip hline).2 hc with rfl | hmem
  · rfl
  · exact h c hmem

theorem prints_frame (hwidth : width.Unmarked) (htitle : title.Unmarked) :
    PrintsAll (frameFragments width title) (frameFields title) := by
  have hblock : IsCommand ("^FB" ++ width ++ ",1,0,C,0") :=
    IsCommand.append (IsCommand.append (by decide) hwidth) (by decide)
  have hdata : IsCommand ("^FD" ++ Escape.encode title) :=
    IsCommand.append (by decide) (Escape.encode_unmarked htitle)
  have hbox : Prints ["^FO10,10", "^GB690,380,3,B,2", "^FS"] [⟨"10,10", ""⟩] :=
    ⟨by decide, rfl⟩
  have hlarge : Prints ["^CF0,40"] [] := ⟨by decide, rfl⟩
  have htext : Prints (titleFragment width title) [⟨"0,30", Escape.encode title⟩] := by
    refine ⟨?_, rfl⟩
    simp only [titleFragment, List.forall_mem_cons]
    exact ⟨by decide, hblock, by decide, by decide, hdata, by decide, List.forall_mem_nil _⟩
  have hline : Prints ["^FO20,90", "^GB670,1,2,B,0", "^FS"] [⟨"20,90", ""⟩] := ⟨by decide, rfl⟩
  have hsmall : Prints ["^CF0,25"] [] := ⟨by decide, rfl⟩
  exact .cons hbox <| .cons hlarge <| .cons htext <| .cons hline <| .cons hsmall .nil

theorem prints_barcode (hcode : code.Unmarked) :
    PrintsAll (barcodeFragments code) (barcodeFields code) := by
  unfold barcodeFragments barcodeFields
  split
  · exact .nil
  · have hformat : Prints ["^BY2,3.0,60"] [] := ⟨by decide, rfl⟩
    have hbars : Prints ["^FO30,280", "^BC", "^FD" ++ code, "^FS"] [⟨"30,280", code⟩] := by
      refine ⟨?_, rfl⟩
      have hdata : IsCommand ("^FD" ++ code) := IsCommand.append (by decide) hcode
      simp only [List.forall_mem_cons]
      exact ⟨by decide, by decide, hdata, by decide, List.forall_mem_nil _⟩
    exact .cons hformat (.cons hbars .nil)

theorem prints_content (hcontent : content.Unmarked) :
    Prints (contentFragment content) [contentField content] := by
  refine ⟨?_, rfl⟩
  have hdata : IsCommand ("^FDLA," ++ content) := IsCommand.append (by decide) hcontent
  simp only [contentFragment, List.forall_mem_cons]
  exact ⟨by decide, by decide, by decide, hdata, by decide, List.forall_mem_nil _⟩

theorem prints_packaged (hwidth : width.Unmarked) (h : texts.Unmarked) :
    PrintsAll (packagedFragments width texts) (packagedFields texts) := by
  have hstart : Prints ["^XA"] [] := ⟨by decide, rfl⟩
  have hreset : Prints ["~JSN"] [] := ⟨by decide, rfl⟩
  have hend : Prints ["^XZ"] [] := ⟨by decide, rfl⟩
  have hfinish : PrintsAll finishFragments [] := .cons hreset (.cons hend .nil)
  have hdescription := prints_lines (unmarked_of_mem_placedDescription h.description)
  have hall := PrintsAll.cons hstart <| (prints_frame hwidth h.title).append <|
    hdescription.append <| (prints_barcode h.code).append <|
      .cons (prints_content h.content) hfinish
  exact hall

/-! ### Its start and its end -/

/-- What stands once on every label. -/
def envelope : List Text :=
  ["^XA", "~JSN", "^XZ"]

/-- The commands of the fragments that start with a pattern. -/
def found (pattern separator : Text) (fragments : List (List Text)) : Nat :=
  (fragments.flatMap (endedBy separator)).countP pattern.isPrefixOf

theorem found_append (pattern separator : Text) (a b : List (List Text)) :
    found pattern separator (a ++ b) = found pattern separator a + found pattern separator b := by
  rw [found, List.flatMap_append, List.countP_append]
  rfl

theorem found_cons (pattern separator : Text) (fragment : List Text) (rest : List (List Text)) :
    found pattern separator (fragment :: rest) =
      found pattern separator [fragment] + found pattern separator rest :=
  found_append pattern separator [fragment] rest

theorem found_frame {pattern : Text} (h : pattern ∈ envelope) (separator width title : Text) :
    found pattern separator (frameFragments width title) = 0 := by
  simp only [envelope, List.mem_cons, List.not_mem_nil, or_false] at h
  rcases h with rfl | rfl | rfl <;> rfl

theorem found_lines {pattern : Text} (h : pattern ∈ envelope) (separator : Text)
    (lines : List (Nat × Text)) : found pattern separator (lines.map lineFragment) = 0 := by
  have hline (line : Nat × Text) : found pattern separator [lineFragment line] = 0 := by
    simp only [envelope, List.mem_cons, List.not_mem_nil, or_false] at h
    rcases h with rfl | rfl | rfl <;> rfl
  induction lines with
  | nil => rfl
  | cons line rest ih => rw [List.map_cons, found_cons, hline, ih]

theorem found_barcode {pattern : Text} (h : pattern ∈ envelope) (separator code : Text) :
    found pattern separator (barcodeFragments code) = 0 := by
  simp only [envelope, List.mem_cons, List.not_mem_nil, or_false] at h
  unfold barcodeFragments
  split
  · rfl
  · rcases h with rfl | rfl | rfl <;> rfl

theorem found_packaged {pattern : Text} (h : pattern ∈ envelope) (separator width : Text)
    (texts : PackagedTexts) : found pattern separator (packagedFragments width texts) = 1 := by
  have hends : found pattern separator [["^XA"]] +
      (found pattern separator [contentFragment texts.content] +
        found pattern separator finishFragments) = 1 := by
    simp only [envelope, List.mem_cons, List.not_mem_nil, or_false] at h
    rcases h with rfl | rfl | rfl <;> rfl
  rw [packagedFragments, found_cons, found_append, found_append, found_append, found_append,
    found_frame h, found_lines h, found_barcode h]
  omega

/-! ### The label as it is emitted -/

variable {config : Config}

/-- What the calls add, fragment by fragment, are the given commands. -/
def Adds (config : Config) (calls : List Call) (fragments : List (List Text)) : Prop :=
  (calls.flatMap fun call => (call.operation.emit config call.arguments).fragments) =
    fragments.map fun fragment => .text fragment.flatten

theorem Adds.cons {call : Call} {fragment : List Text} {calls : List Call}
    {rest : List (List Text)}
    (h : (call.operation.emit config call.arguments).fragments = [.text fragment.flatten])
    (h' : Adds config calls rest) : Adds config (call :: calls) (fragment :: rest) := by
  rw [Adds] at h' ⊢
  rw [List.flatMap_cons, h, h']
  rfl

theorem Adds.append {first second : List Call} {fragments others : List (List Text)}
    (h : Adds config first fragments) (h' : Adds config second others) :
    Adds config (first ++ second) (fragments ++ others) := by
  rw [Adds] at h h' ⊢
  rw [List.flatMap_append, h, h', List.map_append]

def titleCall (s : Text) : Call :=
  .positional .writeTextAt [.integer 0, .integer 30, .text s, .member .upright, .member .center]

def descriptionCall (s : Text) : Call :=
  .positional .writeTextAtWithWrap [.integer 30, .integer 110, .text s, .integer 40, .integer 30,
    .integer 250]

/-- A title is written if the width is, and not at all otherwise. -/
theorem emit_titleCall (config : Config) (s : Text) :
    Operation.emit config (titleCall s).arguments .writeTextAt =
      .one (config.maxWidth.toText.map fun width => (titleFragment width s).flatten) := by
  have htext : textField config (.member .upright) (.member .center) (.integer 0) (.integer 30) s =
      config.maxWidth.toText.map fun width => (titleFragment width s).flatten := by
    simp only [textField, Token.justification]
    cases config.maxWidth.toText <;> rfl
  rw [emit_writeTextAt config rfl]
  exact congrArg Emission.one htext

theorem positions_description (count : Nat) :
    Wrap.positions 30 250 count (.integer 110) =
      (descriptionHeights.map fun y : Nat => Value.integer y).take count := by
  rcases count with _ | _ | _ | _ | _ | count
  · rfl
  · rfl
  · rfl
  · rfl
  · rfl
  · simp [Wrap.positions, Value.whole?, descriptionHeights]

theorem toText_natCast {y : Nat} (h : y < 1000) :
    (Value.integer y).toText = .ok (Text.ofNat y) := by
  have hnonneg : ¬ (y : Int) < 0 := by omega
  change Value.integerText y = _
  rw [Value.integerText, if_pos (writable_of_lt_thousand h), Number.integerText, if_neg hnonneg,
    Int.natAbs_natCast, Text.ofNat, Text.ofString, Nat.toString_eq_ofList_toDigits,
    String.toList_ofList]
  rfl

theorem textField_line (config : Config) {line : Nat × Text} (h : line.1 ∈ descriptionHeights) :
    textField config (.member .upright) (.member .left) (.integer 30) (.integer line.1) line.2 =
      .ok (lineFragment line).flatten := by
  have hheight : line.1 < 1000 := by
    have hall : ∀ y ∈ descriptionHeights, y < 1000 := by decide
    exact hall line.1 h
  have hcommand : textField config (.member .upright) (.member .left) (.integer 30)
      (.integer line.1) line.2 = command ["^FO", Value.integer 30, ",", Value.integer line.1, ",0",
        "^AON", "^FH^FD", Escape.encode line.2, fieldEnd] := rfl
  rw [hcommand]
  simp only [command, Part.write, toText_natCast hheight]
  rw [lineFragment, List.flatten_cons, List.append_assoc, List.append_assoc]
  rfl

/-- There are no more positions than lines, so it does not matter where the positions end. -/
theorem zip_take {α β : Type} (xs : List α) (ys : List β) :
    (xs.take ys.length).zip ys = xs.zip ys := by
  induction ys generalizing xs with
  | nil => simp
  | cons y ys ih => cases xs <;> simp [ih]

theorem placedLines_description (s : Text) : (descriptionCall s).arguments.placedLines =
    (placedDescription s).map fun line => (.integer line.1, line.2) := by
  have hlines : (descriptionCall s).arguments.placedLines =
      (Wrap.positions 30 250 (Wrap.lineTexts 40 s).length (.integer 110)).zip
        (Wrap.lineTexts 40 s) := rfl
  rw [hlines, positions_description, zip_take, List.zip_map_left, placedDescription]
  rfl

theorem adds_description (config : Config) (s : Text) :
    Adds config [descriptionCall s] ((placedDescription s).map lineFragment) := by
  have hwrites := emit_wrap_eq_mapM config (fits_wrap s)
  change Wrap.Writes _ ((descriptionCall s).arguments.placedLines.mapM _) at hwrites
  rw [placedLines_description,
    mapM_map_eq (g := fun line => (lineFragment line).flatten)] at hwrites
  · rw [Adds, List.flatMap_singleton]
    refine hwrites.1.trans ?_
    rw [List.map_map, List.map_map]
    rfl
  · intro line hline
    exact textField_line config (List.of_mem_zip hline).1

theorem adds_barcode (config : Config) (code : Text) :
    Adds config (barcodeCalls code) (barcodeFragments code) := by
  unfold barcodeCalls barcodeFragments
  split
  · rfl
  · exact .cons rfl (.cons rfl rfl)

theorem adds_packaged (hwidth : config.maxWidth.toText = .ok width) (texts : PackagedTexts) :
    Adds config (packagedCalls texts) (packagedFragments width texts) := by
  have hstart : Adds config [.positional .start []] [["^XA"]] := rfl
  have htitle : (Operation.emit config (titleCall texts.title).arguments .writeTextAt).fragments =
      [.text (titleFragment width texts.title).flatten] := by
    rw [emit_titleCall, hwidth]
    rfl
  have hheading : Adds config (headingCalls texts) (frameFragments width texts.title ++
      (placedDescription texts.description).map lineFragment) :=
    .cons rfl <| .cons rfl <| .cons htitle <| .cons rfl <| .cons rfl <|
      adds_description config texts.description
  have hcontent : Adds config [contentCall texts.content] [contentFragment texts.content] := rfl
  have hfinish : Adds config [.positional .finish []] finishFragments := rfl
  have hbody := hheading.append ((adds_barcode config texts.code).append hcontent)
  have hall := (hstart.append hbody).append hfinish
  simpa [packagedCalls, packagedFragments] using hall

/-! ### The whole label -/

theorem packagedFragments_ne_nil (width : Text) (texts : PackagedTexts) :
    ∀ fragment ∈ packagedFragments width texts, fragment ≠ [] := by
  have hbarcode : ∀ fragment ∈ barcodeFragments texts.code, fragment ≠ [] := by
    unfold barcodeFragments
    split <;> simp
  have hlines : ∀ fragment ∈ (placedDescription texts.description).map lineFragment,
      fragment ≠ [] :=
    List.forall_mem_map.mpr fun _ _ => List.cons_ne_nil _ _
  simp only [packagedFragments, List.forall_mem_cons, List.forall_mem_append]
  exact ⟨by decide, by simp [frameFragments, titleFragment], hlines, hbarcode,
    by simp [contentFragment], by decide⟩

/-- What the calls have added is rendered with a separator behind each fragment. -/
theorem render_added (hwidth : config.maxWidth.toText = .ok width) (texts : PackagedTexts) :
    Document.render (Document.append ⟨config, []⟩ ((packagedCalls texts).flatMap fun call =>
      (call.operation.emit config call.arguments).fragments)) =
      .ok ((packagedFragments width texts).flatMap (endedBy config.separator)).flatten := by
  have hmap : (packagedFragments width texts).map (fun fragment => Value.text fragment.flatten) =
      ((packagedFragments width texts).map List.flatten).map .text := List.map_map.symm
  have hadds := adds_packaged hwidth texts
  rw [Adds] at hadds
  change renderFragments config.separator ([] ++ _) = _
  rw [List.nil_append, hadds, hmap, renderFragments_texts,
    Text.flatten_flatMap_endedBy (packagedFragments_ne_nil width texts)]

section Rendering

variable {tree : Storage.Tree} {dir : Storage.Path} {context : Context}

theorem render_packaged_eq_ok_iff
    (hfile : tree.get? (dir ++ [packagedName]) = some (.file packagedText))
    (htexts : TextEntries context) {s : Text} :
    render tree dir packagedName config context = .ok s ↔
      ∃ d, Document.performAll ⟨config, []⟩ (packagedCalls (packagedTexts context)) = .ok d ∧
        d.render = .ok s := by
  rw [render_of_find? (find?_packaged hfile), renderText_packaged config htexts]
  cases Document.performAll ⟨config, []⟩ (packagedCalls (packagedTexts context)) with
  | error f => simp [Except.mapError, bind, Except.bind]
  | ok d => cases hd : d.render <;> simp [Except.mapError, bind, Except.bind, hd]

/-- Only a width that cannot be written keeps the label from being rendered. -/
theorem exists_render (hfile : tree.get? (dir ++ [packagedName]) = some (.file packagedText))
    (htexts : TextEntries context) (hshort : config.maxWidth.Short) :
    ∃ s, render tree dir packagedName config context = .ok s := by
  obtain ⟨width, hwidth⟩ := Value.toText_of_short hshort
  obtain ⟨d, hperform⟩ := Document.performAll_of_forall ⟨config, []⟩
    (emit_packagedCalls hshort (packagedTexts context))
  obtain ⟨-, rfl⟩ := Document.performAll_eq_ok_iff.mp hperform
  exact ⟨_, (render_packaged_eq_ok_iff hfile htexts).mpr
    ⟨_, hperform, render_added hwidth (packagedTexts context)⟩⟩

/-- The label that is rendered consists of the fragments, with a separator behind each. -/
theorem text_of_render (hfile : tree.get? (dir ++ [packagedName]) = some (.file packagedText))
    (htexts : TextEntries context) {s : Text}
    (h : render tree dir packagedName config context = .ok s) :
    ∃ width, config.maxWidth.toText = .ok width ∧
      s = ((packagedFragments width (packagedTexts context)).flatMap
        (endedBy config.separator)).flatten := by
  obtain ⟨d, hperform, hrender⟩ := (render_packaged_eq_ok_iff hfile htexts).mp h
  obtain ⟨hall, rfl⟩ := Document.performAll_eq_ok_iff.mp hperform
  have hmem : titleCall (packagedTexts context).title ∈ packagedCalls (packagedTexts context) := by
    simp [packagedCalls, headingCalls, titleCall]
  obtain ⟨o, ho⟩ := hall _ hmem
  -- The title has been written, so the width could be.
  have htitle := emit_titleCall config (packagedTexts context).title
  cases hwidth : config.maxWidth.toText with
  | ok width =>
    rw [render_added hwidth] at hrender
    exact ⟨width, rfl, (Except.ok.inj hrender).symm⟩
  | error f =>
    rw [hwidth] at htitle
    have hfail := congrArg Emission.outcome htitle
    cases hfail.symm.trans ho

end Rendering

theorem unmarked_orElse {s t : Text} (hs : s.Unmarked) (ht : t.Unmarked) :
    Text.Unmarked (s.orElse t) := by
  unfold Text.orElse
  split
  · exact ht
  · exact hs

theorem packagedTexts_unmarked {context : Context}
    (h : ∀ n ∈ packagedEntries, (entryText context n).Unmarked) :
    (packagedTexts context).Unmarked where
  title := unmarked_orElse (h _ (by decide)) (by decide)
  description := unmarked_orElse (h _ (by decide)) (by decide)
  code := h _ (by decide)
  content :=
    unmarked_orElse (unmarked_orElse (h _ (by decide)) (h _ (by decide))) (by decide)

/-- The lines of a description stand at the first heights, and a description that is not blank has
one. -/
theorem heights_of_placedDescription (s : Text) : ∃ n ≤ 5,
    (placedDescription s).map Prod.fst = descriptionHeights.take n ∧
      (n = 0 ↔ Text.blank s = true) := by
  have hblank : (Wrap.lineTexts 40 s).length = 0 ↔ Text.blank s = true := by
    rw [List.length_eq_zero_iff]
    constructor
    · exact Wrap.blank_of_lineTexts
    · intro hs
      rw [Wrap.lineTexts, if_pos hs]
  have hlength : descriptionHeights.length = 5 := rfl
  refine ⟨min 5 (Wrap.lineTexts 40 s).length, Nat.min_le_left _ _, ?_, ?_⟩
  · rw [placedDescription, ← zip_take, List.map_fst_zip (List.length_take_le _ _),
      List.take_eq_take_iff, hlength]
    omega
  · rw [← hblank]
    omega

theorem above_barcode {s : Text} : ∀ line ∈ placedDescription s, line.1 < 280 := by
  have hall : ∀ y ∈ descriptionHeights, y < 280 := by decide
  intro line hline
  exact hall line.1 (List.of_mem_zip hline).1

/-- The text is one label, whose fields stand in turn, the lines of the description above the
barcode. -/
structure Layout (separator : Text) (texts : PackagedTexts) (s : Text) : Prop where
  starts : Text.ofString "^XA" ++ separator <+: s
  ends : Text.ofString "~JSN" ++ separator ++ Text.ofString "^XZ" ++ separator <:+ s
  once : ∀ command ∈ envelope, Text.occurrences command s = 1
  fields : s.fields? = some (packagedFields texts)
  turns : s.fieldMarks = Text.inTurn (packagedFields texts).length
  heights : ∃ n ≤ 5,
    (placedDescription texts.description).map Prod.fst = descriptionHeights.take n ∧
      (n = 0 ↔ Text.blank texts.description = true)
  above : ∀ line ∈ placedDescription texts.description, line.1 < 280

theorem layout_of_packagedFragments (hwidth : width.Unmarked) (h : texts.Unmarked)
    (hseparator : separator.Unmarked) :
    Layout separator texts
      ((packagedFragments width texts).flatMap (endedBy separator)).flatten := by
  have hprints := (prints_packaged hwidth h).endedBy hseparator
  have htext : ((packagedFragments width texts).flatMap (endedBy separator)).flatten = _ :=
    Text.flatten_flatMap_endedBy (packagedFragments_ne_nil width texts)
  refine ⟨?_, ?_, ?_, hprints.fields?_flatten, ?_, heights_of_placedDescription _, above_barcode⟩
  · rw [htext]
    exact ⟨_, rfl⟩
  · obtain ⟨others, hsplit⟩ : ∃ others, packagedFragments width texts = others ++ finishFragments :=
      ⟨_, by simp only [packagedFragments, ← List.cons_append, ← List.append_assoc]; rfl⟩
    rw [htext, hsplit, List.map_append, List.flatMap_append]
    refine ⟨_, congrArg _ ?_⟩
    simp [finishFragments]
  · intro command hcommand
    have hwhole : ∀ command ∈ envelope, IsCommand command := by decide
    rw [Text.occurrences_flatten (hwhole command hcommand) hprints.commands]
    exact found_packaged hcommand separator width texts
  · exact Text.fieldMarks_of_fields? hprints.fields?_flatten

/-- Under any settings the label of the packaged template is laid out in one way, whatever texts
without marks it is given: it starts and ends once, its fields open and close in turn, and at most
five lines of the description are printed, one below the other and all of them above the barcode. -/
theorem render_packaged_layout {tree : Storage.Tree} {dir : Storage.Path} {context : Context}
    {w : Int} (hfile : tree.get? (dir ++ [packagedName]) = some (.file packagedText))
    (hwidth : config.maxWidth.integer? = some w) (htexts : TextEntries context)
    (hmarks : ∀ n ∈ packagedEntries, (entryText context n).Unmarked) :
    (config.maxWidth.Short → ∃ s, render tree dir packagedName config context = .ok s) ∧
    ∀ s, render tree dir packagedName config context = .ok s →
      Layout config.separator (packagedTexts context) s := by
  refine ⟨exists_render hfile htexts, ?_⟩
  intro s hs
  obtain ⟨width, htext, rfl⟩ := text_of_render hfile htexts hs
  apply layout_of_packagedFragments
  · exact Value.toText_unmarked_of_integer? hwidth htext
  · exact packagedTexts_unmarked hmarks
  · exact Script.separator_unmarked config

/-- Six words, no two of which fit on a line. -/
def longDescription : Text :=
  Text.join " " (List.replicate 6 (List.replicate 30 (.char 'x')))

def longContext : Context :=
  [("texto", .text "Caixa_7"), ("descricao", .text longDescription), ("codigo", .text "0042")]

theorem render_packaged_layout_long :
    (placedDescription (packagedTexts longContext).description).length = 5 ∧
    ∃ s, render packagedTree [] packagedName { suppressSeparator := .flag false } longContext =
        .ok s ∧
      Layout "\n" (packagedTexts longContext) s := by
  have htexts : TextEntries longContext := by
    simp only [TextEntries, packagedEntries, List.forall_mem_cons]
    exact ⟨Or.inr ⟨_, rfl⟩, Or.inr ⟨_, rfl⟩, Or.inr ⟨_, rfl⟩, Or.inl rfl, List.forall_mem_nil _⟩
  have hmarks : ∀ n ∈ packagedEntries, (entryText longContext n).Unmarked := by decide +kernel
  have hfile : packagedTree.get? ([] ++ [packagedName]) = some (.file packagedText) := rfl
  have hwidth : ({ suppressSeparator := .flag false } : Config).maxWidth.integer? = some 710 := rfl
  obtain ⟨hrender, hlayout⟩ := render_packaged_layout hfile hwidth htexts hmarks
  obtain ⟨s, hs⟩ := hrender (by decide)
  exact ⟨by decide +kernel, s, hs, hlayout s hs⟩

end Template

end ThermalLabel
