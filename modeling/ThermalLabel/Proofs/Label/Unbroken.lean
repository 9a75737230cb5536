import ThermalLabel.Label.Document
import ThermalLabel.Proofs.Label.Lines
import ThermalLabel.Proofs.Label.Naming
import ThermalLabel.Proofs.Value.Unbroken

/-!
# Labels without lone halves

Whatever is called on a label whose texts are unbroken, with arguments that are, its fragments stay
so, and so does every position and every answer that it gives.  In the end the rendered label has a
form in octets.
-/
namespace ThermalLabel

open Text (Unbroken)

theorem Escape.encode_unbroken {s : Text} (h : Unbroken s) : Unbroken (encode s) := by
  refine Text.unbroken_flatMap fun c hc => ?_
  unfold encodePoint
  split
  · exact Text.unbroken_ofChars ['_', '5', 'F']
  · split
    · exact Text.unbroken_ofChars ['_', '2', '0']
    · exact Text.unbroken_cons.mpr ⟨h c hc, Text.unbroken_nil⟩

/-! ### Commands -/

/-- The text of the part, if it has one, holds no lone half. -/
def Part.Clean : Part → Prop
  | .literal s => Unbroken s
  | .value v => v.Clean
  | .token t => ∀ s, t = .ok s → Unbroken s

namespace Part

theorem write_unbroken {p : Part} (hp : p.Clean) {s : Text} (h : p.write = .ok s) :
    Unbroken s := by
  cases p with
  | literal t =>
    cases h
    exact hp
  | value v => exact Value.toText_unbroken hp h
  | token t => exact hp s h

@[simp] theorem clean_value {v : Value} : Clean (.value v) ↔ v.Clean := Iff.rfl

@[simp] theorem clean_literal {s : Text} : Clean (.literal s) ↔ Unbroken s := Iff.rfl

end Part

theorem command_unbroken {parts : List Part} (hparts : ∀ p ∈ parts, p.Clean) {s : Text}
    (h : command parts = .ok s) : Unbroken s := by
  induction parts generalizing s with
  | nil =>
    cases h
    exact Text.unbroken_nil
  | cons p rest ih =>
    rw [List.forall_mem_cons] at hparts
    obtain ⟨t, ht, h⟩ := exists_of_bind_eq_ok h
    obtain ⟨u, hu, h⟩ := exists_of_bind_eq_ok h
    cases h
    exact (Part.write_unbroken hparts.1 ht).append (ih hparts.2 hu)

@[simp] theorem Value.clean_integer (n : Int) : Value.Clean (.integer n) := nofun

@[simp] theorem Value.clean_member (m : Member) : Value.Clean (.member m) := nofun

theorem Value.clean_null : Value.Clean .null := nofun

namespace Token

@[simp] theorem roundness_clean (v : Value) : Part.Clean (.token (roundness v)) := by
  intro s h
  obtain ⟨n, -, h⟩ := exists_of_bind_eq_ok h
  exact Value.integerText_unbroken h

theorem justification_unbroken {v maxWidth : Value} (hw : maxWidth.Clean) {s : Text}
    (h : justification v maxWidth = .ok s) : Unbroken s := by
  obtain ⟨centred, -, h⟩ := exists_of_bind_eq_ok h
  split at h
  · obtain ⟨width, hwidth, h⟩ := exists_of_bind_eq_ok h
    cases h
    exact ((Text.unbroken_ofString _).append (Value.toText_unbroken hw hwidth)).append
      (Text.unbroken_ofString _)
  · cases h
    exact Text.unbroken_ofString _

end Token

/-- A text at a position holds what it was given, escaped. -/
theorem textField_unbroken {config : Config} {orientation justification x y : Value} {s t : Text}
    (hw : config.maxWidth.Clean) (hx : x.Clean) (hy : y.Clean) (hs : Unbroken s)
    (h : textField config orientation justification x y s = .ok t) : Unbroken t := by
  obtain ⟨block, hblock, h⟩ := exists_of_bind_eq_ok h
  obtain ⟨centred, -, h⟩ := exists_of_bind_eq_ok h
  have hleft : (if centred then Value.integer 0 else x).Clean := by
    split
    · exact Value.clean_integer 0
    · exact hx
  refine command_unbroken ?_ h
  simp [hleft, hy, Token.justification_unbroken hw hblock, Escape.encode_unbroken hs]

/-! ### Emissions -/

/-- Neither the fragments nor the position that an emission ends with is a text with a lone half. -/
structure Emission.Clean (e : Emission) : Prop where
  fragments : ∀ v ∈ e.fragments, v.Clean
  outcome : ∀ y, e.outcome = .ok (.endingY y) → y.Clean

namespace Emission

theorem Clean.done {fragments : List Value} (h : ∀ v ∈ fragments, v.Clean) :
    (done fragments).Clean :=
  ⟨h, nofun⟩

theorem Clean.fault (f : Fault) : (fault f).Clean :=
  ⟨nofun, nofun⟩

theorem Clean.one {r : Except Fault Text} (h : ∀ s, r = .ok s → Unbroken s) : (one r).Clean := by
  cases r with
  | ok s => exact .done (by simpa [Value.clean_text] using h s rfl)
  | error f => exact .fault f

theorem Clean.cons {s : Text} {next : Emission} (hs : Unbroken s) (h : next.Clean) :
    (cons s next).Clean :=
  ⟨List.forall_mem_cons.mpr ⟨Value.clean_text.mpr hs, h.fragments⟩, h.outcome⟩

theorem Clean.ends {y : Value} (hy : y.Clean) (notices : List Notice) :
    Clean { fragments := [], notices, outcome := .ok (.endingY y) } :=
  ⟨nofun, by rintro _ ⟨⟩; exact hy⟩

theorem Clean.of_command {e : Emission} {parts : List Part} (he : e = .one (command parts))
    (h : ∀ p ∈ parts, p.Clean) : e.Clean := by
  rw [he]
  exact .one fun _ => command_unbroken h

end Emission

namespace Wrap

theorem lineText_unbroken {line : List Word} (h : ∀ w ∈ line, Unbroken w) :
    Unbroken (lineText line) :=
  Text.unbroken_flatMap fun w hw => (h w hw).append (Text.unbroken_ofChars [' '])

theorem cut_clean (y interval maxY : Value) (dropped : Nat) :
    (cut y interval maxY dropped).Clean := by
  refine ⟨nofun, fun last h => ?_⟩
  obtain ⟨v, hv, rfl⟩ : ∃ v, y.sub interval = .ok v ∧ v = last := by
    obtain ⟨v, hv, h⟩ := exists_of_map_eq_ok h
    exact ⟨v, hv, Outcome.endingY.inj h⟩
  exact Value.sub_clean hv

variable {write : Value → Text → Except Fault Text} {interval maxY : Value}

theorem place_clean (hwrite : ∀ y s t, y.Clean → Unbroken s → write y s = .ok t → Unbroken t)
    (hinterval : interval.Clean) {rest : List (List Word)}
    (hrest : ∀ line ∈ rest, ∀ w ∈ line, Unbroken w) {y : Value} (hy : y.Clean) :
    (place write interval maxY y rest).Clean := by
  induction rest generalizing y with
  | nil => exact .ends hy []
  | cons line rest ih =>
    rw [List.forall_mem_cons] at hrest
    unfold place
    split
    · exact .fault _
    · rename_i s hs
      refine .cons (hwrite y _ s hy (lineText_unbroken hrest.1) hs) ?_
      split
      · exact .ends hy []
      · split
        · exact .fault _
        · rename_i next hnext
          split
          · exact .fault _
          · exact cut_clean next interval maxY _
          · exact ih hrest.2 (Value.add_clean hy hinterval hnext)

theorem text_clean (hwrite : ∀ y s t, y.Clean → Unbroken s → write y s = .ok t → Unbroken t)
    (limit : Value) (hinterval : interval.Clean) {y : Value} (hy : y.Clean) {s : Text}
    (hs : Unbroken s) : (text write limit interval maxY y s).Clean := by
  unfold text
  split
  · exact .ends hy []
  · split
    · exact .fault _
    · rename_i fits _
      split
      · split
        · exact .fault _
        · rename_i line hline
          exact .cons (hwrite y s line hy hs hline) (.ends hy [])
      · refine place_clean hwrite hinterval (fun line hline w hw => ?_) hy
        have hmem : w ∈ (lines fits (words s)).flatten := List.mem_flatten.mpr ⟨line, hline, hw⟩
        rw [lines_flatten] at hmem
        exact hs.of_subset fun c hc => mem_of_mem_words hmem hc

end Wrap

theorem textOf_unbroken {v : Value} (hv : v.Clean) {s : Text} (h : textOf v = .ok s) :
    Unbroken s := by
  unfold textOf at h
  split at h
  · cases h
    exact hv s rfl
  · cases h

theorem voidFragments_clean : ∀ v ∈ voidFragments, v.Clean := by
  rw [voidFragments, List.forall_mem_cons]
  refine ⟨Value.clean_text.mpr (Text.unbroken_ofString _), fun v hv => ?_⟩
  obtain ⟨entry, -, rfl⟩ := List.mem_map.mp hv
  exact Value.clean_text.mpr (Text.unbroken_ofString _)

theorem qrField_clean {v : Value} (hv : v.Clean) : ∀ p ∈ qrField v, p.Clean := by
  unfold qrField
  split
  · simpa using Value.clean_text.mp hv
  · simp [Part.Clean]

theorem barcodeField_clean {a : Arguments} (ha : ∀ p, (a p).Clean) :
    ∀ p ∈ barcodeField a, p.Clean := by
  have hposition :
      Part.Clean (.token (Text.ofString <$> Token.textPosition (a .textPosition))) := by
    intro s h
    obtain ⟨token, -, rfl⟩ := exists_of_map_eq_ok h
    exact Text.unbroken_ofString token
  simp [barcodeField, ha, hposition]

/-- No operation puts a lone half into a label that was not among its arguments. -/
theorem Operation.emit_clean {config : Config} {a : Arguments} (hw : config.maxWidth.Clean)
    (ha : ∀ p, (a p).Clean) (op : Operation) : (op.emit config a).Clean := by
  have hfixed (s : String) : Value.Clean (.text (Text.ofString s)) :=
    Value.clean_text.mpr (Text.unbroken_ofString s)
  cases op with
  | start | reversePrint | endField | finish => exact .done (by simp [hfixed])
  | raw => exact .done (by simpa using ha .value)
  | addVoidMessage => exact .done voidFragments_clean
  | setFont | setFontSize | setPosition | data | writeText | writeUnderline | barcodeFormat
  | simpleBarcode =>
    refine .of_command rfl ?_
    simp [ha, origin, fieldData, underline, plainBarcodeField, closing]
  | drawBoxAt | drawHorizontalLineAt | drawVerticalLineAt | drawBox =>
    refine .of_command rfl ?_
    simp [ha, origin, boxField, closing]
  | barcode =>
    refine .of_command rfl ?_
    simpa [ha, origin, fieldData, closing, or_imp, forall_and] using barcodeField_clean ha
  | addQrCodeAt =>
    refine .of_command rfl ?_
    simpa [ha, origin, qrFormat, closing, or_imp, forall_and] using qrField_clean (ha .data)
  | writeTextAt =>
    refine .one fun t h => ?_
    obtain ⟨s, hs, h⟩ := exists_of_bind_eq_ok h
    exact textField_unbroken hw (ha .x) (ha .y) (textOf_unbroken (ha .value) hs) h
  | writeTextAtWithWrap =>
    rw [emit]
    split
    · exact .ends (ha .y) []
    · rename_i s hs
      refine Wrap.text_clean (fun y s t hy hs h => ?_) _ (ha .lineInterval) (ha .y)
        (ha .value s hs)
      exact textField_unbroken hw (ha .x) hy hs h
    · exact .fault _

/-! ### Documents -/

theorem renderFragments_unbroken {separator : Text} (hseparator : Unbroken separator)
    {fragments : List Value} (hfragments : ∀ v ∈ fragments, v.Clean) {s : Text}
    (h : renderFragments separator fragments = .ok s) : Unbroken s := by
  induction fragments generalizing s with
  | nil =>
    cases h
    exact Text.unbroken_nil
  | cons fragment rest ih =>
    rw [List.forall_mem_cons] at hfragments
    obtain ⟨t, ht, h⟩ := exists_of_bind_eq_ok h
    obtain ⟨u, hu, h⟩ := exists_of_bind_eq_ok h
    cases h
    exact ((Value.toText_unbroken hfragments.1 ht).append hseparator).append (ih hfragments.2 hu)

structure Document.Clean (d : Document) : Prop where
  width : d.config.maxWidth.Clean
  fragments : ∀ v ∈ d.fragments, v.Clean

namespace Document

variable {d : Document}

theorem Clean.render_unbroken (hd : d.Clean) {s : Text} (h : d.render = .ok s) : Unbroken s :=
  renderFragments_unbroken (Text.unbroken_ofString _) hd.fragments h

theorem Clean.append (hd : d.Clean) {fragments : List Value} (h : ∀ v ∈ fragments, v.Clean) :
    (d.append fragments).Clean :=
  ⟨hd.width, List.forall_mem_append.mpr ⟨hd.fragments, h⟩⟩

end Document

/-! ### Calls -/

theorem Operation.default_clean (op : Operation) :
    ∀ f ∈ op.fields, ∀ v, f.default? = some v → v.Clean := by
  cases op <;>
    simp [fields, Field.integer, Field.text, Field.flag, Field.choice, Field.option,
      Value.clean_text]

/-- What is found under a key stands in the list. -/
theorem mem_of_lookup_eq_some {α β : Type} [BEq α] [LawfulBEq α] {entries : List (α × β)} {a : α}
    {b : β} (h : entries.lookup a = some b) : (a, b) ∈ entries := by
  obtain ⟨before, after, rfl, -⟩ := List.lookup_eq_some_iff.mp h
  exact List.mem_append_right before List.mem_cons_self

theorem Arguments.ofList_clean {bound : List (Parameter × Value)}
    (h : ∀ entry ∈ bound, entry.2.Clean) (p : Parameter) : (Arguments.ofList bound p).Clean := by
  unfold Arguments.ofList
  cases hp : bound.lookup p with
  | none => exact Value.clean_null
  | some v => exact h (p, v) (mem_of_lookup_eq_some hp)

theorem mem_byPosition {fs : List Field} {given : List Value} {entry : Parameter × Value}
    (h : entry ∈ byPosition fs given) : entry.2 ∈ given := by
  fun_induction byPosition fs given with
  | case1 f fs v given ih =>
    rcases List.mem_cons.mp h with rfl | h
    · exact List.mem_cons_self
    · exact List.mem_cons_of_mem v (ih h)
  | case2 => cases h

/-- What is bound to a field is one of the arguments or the field's own value. -/
theorem bindCall_clean {op : Operation} {given : List Value} {named : Fields} {a : Arguments}
    (hgiven : ∀ v ∈ given, v.Clean) (hnamed : ∀ f ∈ named, f.2.Clean)
    (h : bindCall op.fields given named = .ok a) (p : Parameter) : (a p).Clean := by
  unfold bindCall at h
  dsimp only at h
  split at h
  · cases h
  split at h
  · cases h
  split at h
  · cases h
  cases h
  refine Arguments.ofList_clean (fun entry hentry => ?_) p
  rcases List.mem_append.mp hentry with hentry | hentry
  · exact hgiven _ (mem_byPosition hentry)
  · obtain ⟨f, hf, hvalue⟩ := List.mem_filterMap.mp hentry
    obtain ⟨v, hv, rfl⟩ := Option.map_eq_some_iff.mp hvalue
    rcases Option.or_eq_some_iff.mp hv with hv | ⟨-, hv⟩
    · exact hnamed _ (Fields.mem_of_get? hv)
    · exact op.default_clean f (List.mem_of_mem_drop hf) v hv

/-- The answer holds no lone half that could be written. -/
def Answer.Clean : Answer → Prop
  | .outcome .same => True
  | .outcome (.endingY y) => y.Clean
  | .result v => v.Clean

theorem Config.description_unbroken {c : Config} {s : Text} (h : c.description = .ok s) :
    Unbroken s := by
  obtain ⟨dpi, hdpi, h⟩ := exists_of_bind_eq_ok h
  obtain ⟨width, hwidth, h⟩ := exists_of_bind_eq_ok h
  obtain ⟨quiet, hquiet, h⟩ := exists_of_bind_eq_ok h
  cases h
  simp [Text.unbroken_append, Value.quoted_unbroken _ hdpi, Value.quoted_unbroken _ hwidth,
    Value.quoted_unbroken _ hquiet]

namespace Document

variable {d : Document}

theorem description_unbroken {s : Text} (h : d.description = .ok s) : Unbroken s := by
  obtain ⟨config, hconfig, h⟩ := exists_of_bind_eq_ok h
  cases h
  simp [Text.unbroken_append, Config.description_unbroken hconfig, Text.unbroken_ofNat]

theorem Clean.query_clean (hd : d.Clean) {m : Method} {given : List Value} {named : Fields}
    {v : Value} (h : d.query m given named = .ok v) : v.Clean := by
  have hrender (h : d.render.map Value.text = .ok v) : v.Clean := by
    obtain ⟨s, hs, rfl⟩ := exists_of_map_eq_ok h
    exact Value.clean_text.mpr (hd.render_unbroken hs)
  cases m with
  | render =>
    rw [query] at h
    split at h
    · exact hrender h
    · cases h
  | text => exact hrender h
  | description =>
    obtain ⟨s, hs, rfl⟩ := exists_of_map_eq_ok h
    exact Value.clean_text.mpr (description_unbroken hs)
  | settings =>
    cases h
    nofun
  | dots =>
    obtain ⟨inches, -, h⟩ := exists_of_bind_eq_ok h
    obtain ⟨n, -, h⟩ := exists_of_bind_eq_ok h
    cases h
    nofun
  | operation op => cases h

/-- A call leaves the label clean, and its answer too. -/
theorem Clean.call_clean (hd : d.Clean) {m : Method} {given : List Value} {named : Fields}
    (hgiven : ∀ v ∈ given, v.Clean) (hnamed : ∀ f ∈ named, f.2.Clean) :
    (d.call m given named).1.Clean ∧
      ∀ answer, (d.call m given named).2.answer = .ok answer → answer.Clean := by
  cases m with
  | operation op =>
    rw [call]
    cases hbind : bindCall op.fields given named with
    | error f => exact ⟨hd, nofun⟩
    | ok a =>
      have hemission := op.emit_clean hd.width (bindCall_clean hgiven hnamed hbind)
      refine ⟨hd.append hemission.fragments, fun answer h => ?_⟩
      obtain ⟨o, ho, rfl⟩ := exists_of_map_eq_ok h
      cases o with
      | same => trivial
      | endingY y => exact hemission.outcome y ho
  | _ =>
    refine ⟨hd, fun answer h => ?_⟩
    simp only [call] at h
    obtain ⟨v, hv, rfl⟩ := exists_of_map_eq_ok h
    exact hd.query_clean hv

end Document

end ThermalLabel
