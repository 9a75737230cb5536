import ThermalLabel.Proofs.Template.Engine
import ThermalLabel.Template.Packaged
import ThermalLabel.Template.Reader

/-!
# What the packaged template does

`packagedProgram` is the packaged template as it is read.  Under a context that gives nothing but
texts for the four entries that it looks at, it performs `packagedCalls`, the calls whose texts are
those entries with what stands in for them where they are absent or empty.  Nothing else in the
context matters, and nothing but the label is printed.
-/
namespace ThermalLabel

/-- The second text stands in for the first one if that is empty. -/
def Text.orElse (s t : Text) : Text :=
  if s = [] then t else s

namespace Template

/-- The entries that the packaged template looks at. -/
def packagedEntries : List Text :=
  ["texto", "descricao", "codigo", "qr"]

/-- Each entry of the packaged template is absent or a text. -/
def TextEntries (context : Context) : Prop :=
  ∀ n ∈ packagedEntries, context.get? n = none ∨ ∃ s, context.get? n = some (.text s)

/-- The text of an entry; an absent one is as good as an empty one. -/
def entryText (context : Context) (n : Text) : Text :=
  match context.get? n with
  | some (.text s) => s
  | _ => []

/-- The texts that the packaged template puts on a label. -/
structure PackagedTexts where
  title : Text
  description : Text
  code : Text
  content : Text

def packagedTexts (context : Context) : PackagedTexts where
  title := (entryText context "texto").orElse "Sample"
  description := (entryText context "descricao").orElse ""
  code := entryText context "codigo"
  content := ((entryText context "qr").orElse (entryText context "texto")).orElse "Sample"

def setLabel (e : Expression) : Statement :=
  .assign "z" e

def onLabel (method : Text) (arguments : List Expression) : Expression :=
  .call (.field (.name "z") method) arguments

def integer (n : Int) : Expression :=
  .constant (.integer n)

def member (e : Enumeration) (name : Text) : Expression :=
  .field (.name e.title) name

def headingProgram : List Statement :=
  [setLabel (onLabel "draw_box_at" [integer 10, integer 10, integer 690, integer 380, integer 3,
      member .color "BLACK", member .roundness "LEVEL2"]),
    setLabel (onLabel "set_font" [integer 40]),
    setLabel (onLabel "write_text_at" [integer 0, integer 30,
      .either (.name "texto") (.constant (.text "Sample")), member .orientation "NORMAL",
      member .justification "CENTER"]),
    setLabel (onLabel "draw_horizontal_line_at" [integer 20, integer 90, integer 670, integer 2]),
    setLabel (onLabel "set_font" [integer 25]),
    setLabel (.field (onLabel "write_text_at_with_wrap" [integer 30, integer 110,
      .either (.name "descricao") (.constant (.text "")), integer 40, integer 30, integer 250])
      "builder")]

def barcodeProgram : List Statement :=
  [setLabel (onLabel "barcode_format"
      [integer 2, .constant (.double (.ofRatio false 3 1)), integer 60]),
    setLabel (onLabel "simple_barcode" [integer 30, integer 280, .name "codigo"])]

def contentStatement : Statement :=
  setLabel (onLabel "add_qr_code_at" [integer 560, integer 250,
    .either (.either (.name "qr") (.name "texto")) (.constant (.text "Sample"))])

/-- The statements of the packaged template. -/
def packagedProgram : List Statement :=
  [setLabel (.call (.field (.name "zpl") "start") [])] ++
    (headingProgram ++ ([.branch (.name "codigo") barcodeProgram] ++ [contentStatement])) ++
    [.print (onLabel "end" [])]

set_option maxRecDepth 8000 in
/-- The text of the packaged template is read as its program. -/
theorem program?_packaged : program? packagedText.toList = some packagedProgram := by
  rw [packagedText, String.toList_ofList]
  simp only [packagedLines, List.flatMap_cons, List.flatMap_nil]
  repeat rw [String.toList_ofList]
  rfl

/-- The barcode of a label, which has none for an empty code. -/
def barcodeCalls (code : Text) : List Call :=
  if code = [] then []
  else [.positional .barcodeFormat [.integer 2, .double (.ofRatio false 3 1), .integer 60],
    .positional .simpleBarcode [.integer 30, .integer 280, .text code]]

/-- The frame, the title and the description of a label. -/
def headingCalls (texts : PackagedTexts) : List Call :=
  [.positional .drawBoxAt [.integer 10, .integer 10, .integer 690, .integer 380, .integer 3,
      .member .black, .member ⟨.roundness, 2, by decide⟩],
    .positional .setFont [.integer 40],
    .positional .writeTextAt [.integer 0, .integer 30, .text texts.title, .member .upright,
      .member .center],
    .positional .drawHorizontalLineAt [.integer 20, .integer 90, .integer 670, .integer 2],
    .positional .setFont [.integer 25],
    .positional .writeTextAtWithWrap [.integer 30, .integer 110, .text texts.description,
      .integer 40, .integer 30, .integer 250]]

def contentCall (content : Text) : Call :=
  .positional .addQrCodeAt [.integer 560, .integer 250, .text content]

/-- The calls of the packaged template. -/
def packagedCalls (texts : PackagedTexts) : List Call :=
  [.positional .start []] ++ (headingCalls texts ++ (barcodeCalls texts.code ++
    [contentCall texts.content])) ++ [.positional .finish []]

/-- What the name of an entry stands for. -/
def entryObject (context : Context) (n : Text) : Object :=
  ((context.get? n).map .value).getD .undefined

/-- The object is a text, or undefined where there is none. -/
def StandsFor (o : Object) (s : Text) : Prop :=
  o = .value (.text s) ∨ o = .undefined ∧ s = []

section Standing

variable {o o' : Object} {s t : Text} {scope : Text → Object} {e e' : Expression}

theorem StandsFor.truthy (h : StandsFor o s) : o.truthy = !s.isEmpty := by
  rcases h with rfl | ⟨rfl, rfl⟩ <;> rfl

theorem StandsFor.either (h : StandsFor o s) (h' : StandsFor o' t) :
    StandsFor (if o.truthy then o else o') (s.orElse t) := by
  rw [h.truthy, Text.orElse]
  cases s with
  | nil => exact h'
  | cons c rest => exact h

theorem StandsFor.either_text (h : StandsFor o s) (t : Text) :
    (if o.truthy then o else .value (.text t)) = .value (.text (s.orElse t)) := by
  rw [h.truthy, Text.orElse]
  rcases h with rfl | ⟨rfl, rfl⟩
  · cases s <;> rfl
  · rfl

theorem Evaluates.either_text (h : Evaluates scope e o) (ho : StandsFor o s) (t : Text) :
    Evaluates scope (.either e (.constant (.text t))) (.value (.text (s.orElse t))) := by
  rw [← ho.either_text t]
  exact h.either (.constant _)

end Standing

section Packaged

variable {context : Context} {p : Progress}

theorem standsFor_entry (htexts : TextEntries context) {n : Text} (hn : n ∈ packagedEntries) :
    StandsFor (entryObject context n) (entryText context n) := by
  unfold entryObject entryText
  rcases htexts n hn with h | ⟨s, h⟩
  · rw [h]
    exact Or.inr ⟨rfl, rfl⟩
  · rw [h]
    exact Or.inl rfl

/-- Nothing that every template has hides an entry of the packaged template. -/
theorem Untouched.entry (hp : Untouched context p) {n : Text} (hn : n ∈ packagedEntries) :
    Evaluates (p.scope context) (.name n) (entryObject context n) := by
  have hfree : ∀ n ∈ packagedEntries,
      n ≠ Text.ofString "z" ∧ (globals.lookup n).isNone = true := by decide
  obtain ⟨hne, hnone⟩ := hfree n hn
  refine .name ?_
  rw [hp n hne, given, Option.isNone_iff_eq_none.mp hnone, entryObject]

theorem Untouched.member (hp : Untouched context p) {e : Enumeration} {name : Text} {m : Member}
    (h : (Object.enumeration e).field name = .ok (.value (.member m))) :
    Evaluates (p.scope context) (member e name) (.value (.member m)) := by
  have hgiven : given context e.title = .enumeration e := by
    cases e <;> rfl
  have hne : Text.ofString e.title ≠ Text.ofString "z" := by
    cases e <;> decide
  exact Evaluates.field (.name ((hp _ hne).trans hgiven)) h

@[simp] theorem evaluates_integer (scope : Text → Object) (n : Int) :
    Evaluates scope (integer n) (.value (.integer n)) :=
  .constant _

/-- A call on the label, which keeps the label under its name. -/
theorem performs_onLabel {method : Text} {op : Operation} {es : List Expression}
    {given : List Value} {rest : List Statement} {others : List Call}
    (hmethod : Object.methodOf? method = some (.operation op)) (hop : op ≠ .writeTextAtWithWrap)
    (hcount : op.takes given.length = true)
    (hgiven : ∀ p, Untouched context p →
      List.Forall₂ (fun e v => Evaluates (p.scope context) e (.value v)) es given)
    (hrest : Performs context rest others) :
    Performs context (setLabel (onLabel method es) :: rest) (.positional op given :: others) := by
  have hcall : Performs context [setLabel (onLabel method es)] [.positional op given] :=
    performs_assign fun p hp =>
      calls_operation (.name hp.label) hmethod hop (hgiven p hp.untouched) hcount
  exact hcall.append hrest

theorem fits_wrap (s : Text) :
    Operation.Fits .writeTextAtWithWrap (Call.positional .writeTextAtWithWrap [.integer 30,
      .integer 110, .text s, .integer 40, .integer 30, .integer 250]).arguments := by
  simp only [Operation.Fits, Operation.fields, List.forall_mem_cons]
  exact ⟨⟨30, rfl⟩, ⟨110, rfl⟩, Or.inr ⟨s, rfl⟩, ⟨40, rfl⟩, ⟨30, rfl⟩, ⟨250, rfl⟩, ⟨0, rfl⟩,
    ⟨0, rfl⟩, List.forall_mem_nil _⟩

/-- The frame, the title and the description depend on two entries. -/
theorem performs_heading (htexts : TextEntries context) :
    Performs context headingProgram (headingCalls (packagedTexts context)) := by
  have hwrap : Performs context [setLabel (.field (onLabel "write_text_at_with_wrap" [integer 30,
        integer 110, .either (.name "descricao") (.constant (.text "")), integer 40, integer 30,
        integer 250]) "builder")]
      [.positional .writeTextAtWithWrap [.integer 30, .integer 110,
        .text (packagedTexts context).description, .integer 40, .integer 30, .integer 250]] := by
    refine performs_assign fun p hp => calls_wrap (.name hp.label) rfl (fits_wrap _) ?_ rfl
    have hdescription := (hp.untouched.entry (n := "descricao") (by decide)).either_text
      (standsFor_entry htexts (by decide)) ""
    simp [hdescription, packagedTexts]
  refine performs_onLabel rfl (by decide) rfl (fun p hp => ?_) <|
    performs_onLabel rfl (by decide) rfl (fun p hp => ?_) <|
    performs_onLabel rfl (by decide) rfl (fun p hp => ?_) <|
    performs_onLabel rfl (by decide) rfl (fun p hp => ?_) <|
    performs_onLabel rfl (by decide) rfl (fun p hp => ?_) hwrap
  · have hcolor : Evaluates (p.scope context) (member .color "BLACK") (.value (.member .black)) :=
      hp.member rfl
    have hroundness : Evaluates (p.scope context) (member .roundness "LEVEL2")
        (.value (.member ⟨.roundness, 2, by decide⟩)) := hp.member rfl
    simp [hcolor, hroundness]
  · simp
  · have htitle := (hp.entry (n := "texto") (by decide)).either_text
      (standsFor_entry htexts (by decide)) "Sample"
    have horientation : Evaluates (p.scope context) (member .orientation "NORMAL")
        (.value (.member .upright)) := hp.member rfl
    have hjustification : Evaluates (p.scope context) (member .justification "CENTER")
        (.value (.member .center)) := hp.member rfl
    simp [htitle, horientation, hjustification, packagedTexts]
  · simp
  · simp

/-- A code that is not empty has a barcode. -/
theorem performs_barcodeProgram {code : Text} (hne : code ≠ [])
    (hcode : entryObject context "codigo" = .value (.text code)) :
    Performs context barcodeProgram (barcodeCalls code) := by
  rw [barcodeCalls, if_neg hne]
  refine performs_onLabel rfl (by decide) rfl (fun p hp => ?_) <|
    performs_onLabel rfl (by decide) rfl (fun p hp => ?_) (.nil context)
  · have hratio : Evaluates (p.scope context) (.constant (.double (.ofRatio false 3 1)))
        (.value (.double (.ofRatio false 3 1))) := .constant _
    simp [hratio]
  · have hentry := hp.entry (n := "codigo") (by decide)
    rw [hcode] at hentry
    simp [hentry]

/-- An absent code is as good as an empty one: neither has a barcode. -/
theorem performs_barcode (htexts : TextEntries context) :
    Performs context [.branch (.name "codigo") barcodeProgram]
      (barcodeCalls (packagedTexts context).code) := by
  have hcode : StandsFor (entryObject context "codigo") (packagedTexts context).code :=
    standsFor_entry htexts (by decide)
  have hcondition (p : Progress) (hp : Ready context p) :
      Evaluates (p.scope context) (.name "codigo") (entryObject context "codigo") :=
    hp.untouched.entry (by decide)
  have hbody : (entryObject context "codigo").truthy = true →
      Performs context barcodeProgram (barcodeCalls (packagedTexts context).code) := by
    intro htruthy
    rw [hcode.truthy, Bool.not_eq_true', List.isEmpty_eq_false_iff] at htruthy
    rcases hcode with hvalue | ⟨-, hnil⟩
    · exact performs_barcodeProgram htruthy hvalue
    · exact absurd hnil htruthy
  have hcalls : (if (entryObject context "codigo").truthy then
      barcodeCalls (packagedTexts context).code else []) =
      barcodeCalls (packagedTexts context).code := by
    rw [ite_eq_left_iff]
    intro hfalse
    have hnil : (packagedTexts context).code = [] := by
      simpa [hcode.truthy] using hfalse
    rw [hnil, barcodeCalls, if_pos rfl]
  rw [← hcalls]
  exact performs_branch hcondition hbody

theorem performs_content (htexts : TextEntries context) :
    Performs context [contentStatement] [contentCall (packagedTexts context).content] := by
  refine performs_onLabel rfl (by decide) rfl (fun p hp => ?_) (.nil context)
  have hcontent := ((hp.entry (n := "qr") (by decide)).either
    (hp.entry (n := "texto") (by decide))).either_text
    ((standsFor_entry htexts (by decide)).either (standsFor_entry htexts (by decide))) "Sample"
  simp [hcontent, packagedTexts]

/-- The packaged template gives the label that its calls build, and nothing around it. -/
theorem run_packaged (config : Config) (htexts : TextEntries context) :
    run packagedProgram config context =
      Document.performAll ⟨config, []⟩ (packagedCalls (packagedTexts context)) >>=
        Document.render := by
  have hstart : Reaches context [setLabel (.call (.field (.name "zpl") "start") [])]
      { document := ⟨config, []⟩ } [.positional .start []] := by
    have huntouched : Untouched context { document := ⟨config, []⟩ } := fun _ _ => rfl
    refine reaches_assign huntouched ?_
    exact calls_operation (.name rfl) rfl (by decide) .nil rfl
  have hbody := (performs_heading htexts).append
    ((performs_barcode htexts).append (performs_content htexts))
  refine run_of_reaches (hstart.append hbody) fun p hp => ?_
  exact calls_operation (.name hp.label) rfl (by decide) .nil rfl

end Packaged

end Template

end ThermalLabel
