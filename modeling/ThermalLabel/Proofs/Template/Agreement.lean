import ThermalLabel.Proofs.Script.Positional
import ThermalLabel.Proofs.Script.Validation
import ThermalLabel.Proofs.Template.Packaged
import ThermalLabel.Template.Directory

/-!
# The packaged template as a script

The packaged template and a script with the same texts give the same label.  They do so under all
valid settings, with and without a separator, and whatever else the context of the template holds.
A width that is too long to be written is the only thing that can go wrong, and it goes wrong in the
same way on both sides.
-/
namespace ThermalLabel

namespace Template

open Script (Means stepOf stepOf_means)

def headingSteps (texts : PackagedTexts) : List Value :=
  [stepOf .drawBoxAt [.integer 10, .integer 10, .integer 690, .integer 380, .integer 3,
      .text "black", .text "level2"],
    stepOf .setFont [.integer 40],
    stepOf .writeTextAt [.integer 0, .integer 30, .text texts.title, .text "normal",
      .text "center"],
    stepOf .drawHorizontalLineAt [.integer 20, .integer 90, .integer 670, .integer 2],
    stepOf .setFont [.integer 25],
    stepOf .writeTextAtWithWrap [.integer 30, .integer 110, .text texts.description, .integer 40,
      .integer 30, .integer 250]]

def barcodeSteps (code : Text) : List Value :=
  if code = [] then []
  else [stepOf .barcodeFormat [.integer 2, .double (.ofRatio false 3 1), .integer 60],
    stepOf .simpleBarcode [.integer 30, .integer 280, .text code]]

/-- The steps of a script for the label of the packaged template. -/
def packagedSteps (texts : PackagedTexts) : List Value :=
  [stepOf .start []] ++ (headingSteps texts ++ (barcodeSteps texts.code ++
    [stepOf .addQrCodeAt [.integer 560, .integer 250, .text texts.content]])) ++
    [stepOf .finish []]

def packagedScript (texts : PackagedTexts) : Value :=
  .object [("operations", .list (packagedSteps texts))]

/-- The steps stand for the calls of the packaged template. -/
theorem packagedSteps_mean (texts : PackagedTexts) :
    List.Forall₂ Means (packagedSteps texts) (packagedCalls texts) := by
  have hstart : Means (stepOf .start []) (.positional .start []) := stepOf_means rfl rfl
  have hheading : List.Forall₂ Means (headingSteps texts) (headingCalls texts) :=
    .cons (stepOf_means rfl rfl) <| .cons (stepOf_means rfl rfl) <|
    .cons (stepOf_means rfl rfl) <| .cons (stepOf_means rfl rfl) <|
    .cons (stepOf_means rfl rfl) <| .cons (stepOf_means rfl rfl) .nil
  have hbarcode : List.Forall₂ Means (barcodeSteps texts.code) (barcodeCalls texts.code) := by
    unfold barcodeSteps barcodeCalls
    split
    · exact .nil
    · exact .cons (stepOf_means rfl rfl) (.cons (stepOf_means rfl rfl) .nil)
  have hcontent : Means (stepOf .addQrCodeAt [.integer 560, .integer 250, .text texts.content])
      (contentCall texts.content) := stepOf_means rfl rfl
  have hfinish : Means (stepOf .finish []) (.positional .finish []) := stepOf_means rfl rfl
  have hbody := List.rel_append hheading (List.rel_append hbarcode (.cons hcontent .nil))
  exact List.rel_append (List.rel_append (.cons hstart .nil) hbody) (.cons hfinish .nil)

theorem fits_title (s : Text) :
    Operation.Fits .writeTextAt (Call.positional .writeTextAt [.integer 0, .integer 30, .text s,
      .member .upright, .member .center]).arguments := by
  simp only [Operation.Fits, Operation.fields, List.forall_mem_cons]
  exact ⟨⟨0, rfl⟩, ⟨30, rfl⟩, ⟨s, rfl⟩, ⟨0, rfl⟩, ⟨3, rfl⟩, List.forall_mem_nil _⟩

variable {config : Config}

/-- A title is centred, so the width of the label has to be written. -/
theorem emit_title (hwidth : config.maxWidth.Short) (s : Text) :
    ∃ o, (Operation.emit config (Call.positional .writeTextAt [.integer 0, .integer 30, .text s,
      .member .upright, .member .center]).arguments .writeTextAt).outcome = .ok o := by
  refine emit_of_fits (fits_title s) ?_
  change ∀ v ∈ [config.maxWidth, .integer 30], v.Short
  have hy : Value.Short (.integer 30) := by decide
  simp [hwidth, hy]

/-- The lines of a description lie between its first one and the lowest position. -/
theorem emit_description (config : Config) (s : Text) :
    ∃ o, (Operation.emit config (Call.positional .writeTextAtWithWrap [.integer 30, .integer 110,
      .text s, .integer 40, .integer 30, .integer 250]).arguments .writeTextAtWithWrap).outcome =
        .ok o := by
  refine emit_of_fits (fits_wrap s) ?_
  intro v hv
  obtain ⟨line, hline, hv⟩ := List.mem_flatMap.mp hv
  have hx : Value.Short (.integer 30) := by decide
  have hposition : line.1 ∈ Wrap.positions 30 250 (Wrap.lineTexts 40 s).length (.integer 110) :=
    (List.of_mem_zip hline).1
  obtain ⟨m, hm, hfirst, hlast⟩ := Wrap.mem_positions (by decide) hposition
  have hshort : Value.Short (.integer m) := by
    obtain ⟨n, rfl⟩ := Int.eq_ofNat_of_zero_le (Int.le_trans (by decide) hfirst)
    exact Value.short_integer.mpr (writable_of_lt_thousand (by omega))
  change v ∈ [Value.integer 30, line.1] at hv
  rw [hm] at hv
  simp only [List.mem_cons, List.not_mem_nil, or_false] at hv
  rcases hv with rfl | rfl
  · exact hx
  · exact hshort

theorem emit_packagedCalls (hwidth : config.maxWidth.Short) (texts : PackagedTexts) :
    ∀ call ∈ packagedCalls texts,
      ∃ o, (call.operation.emit config call.arguments).outcome = .ok o := by
  have hbarcode : ∀ call ∈ barcodeCalls texts.code,
      ∃ o, (call.operation.emit config call.arguments).outcome = .ok o := by
    unfold barcodeCalls
    split
    · simp
    · simp only [List.forall_mem_cons]
      exact ⟨⟨.same, rfl⟩, ⟨.same, rfl⟩, List.forall_mem_nil _⟩
  have hheading : ∀ call ∈ headingCalls texts,
      ∃ o, (call.operation.emit config call.arguments).outcome = .ok o := by
    simp only [headingCalls, List.forall_mem_cons]
    exact ⟨⟨.same, rfl⟩, ⟨.same, rfl⟩, emit_title hwidth texts.title, ⟨.same, rfl⟩, ⟨.same, rfl⟩,
      emit_description config texts.description, List.forall_mem_nil _⟩
  simp only [packagedCalls, List.forall_mem_append, List.forall_mem_singleton]
  exact ⟨⟨⟨.same, rfl⟩, hheading, hbarcode, ⟨.same, rfl⟩⟩, ⟨.same, rfl⟩⟩

theorem run_packagedScript (hconfig : config.Valid) (texts : PackagedTexts) :
    Script.run (packagedScript texts) config = Script.runUnder config (packagedSteps texts) := by
  have hsteps : Script.steps? (packagedScript texts) = some (packagedSteps texts) := rfl
  have hblock : Script.settingsBlock (packagedScript texts) = .null := rfl
  have hread : Script.readConfig .null config = .ok config :=
    (Script.readConfig_spec (Or.inl rfl) hconfig).1 (by decide)
  rw [Script.run_of_steps?_eq_some hsteps, hblock, hread]
  rfl

theorem find?_packaged {tree : Storage.Tree} {dir : Storage.Path}
    (hfile : tree.get? (dir ++ [packagedName]) = some (.file packagedText)) :
    find? tree dir packagedName = some packagedText := by
  have hpath : pathOf? packagedName = some [packagedName] := by decide
  rw [find?, hpath]
  simp [hfile]

theorem render_of_find? {tree : Storage.Tree} {dir : Storage.Path} {name text : String}
    {context : Context} (h : find? tree dir name = some text) :
    render tree dir name config context = (renderText text config context).mapError .fault := by
  rw [render, h]
  dsimp only
  cases renderText text config context <;> rfl

theorem renderText_packaged (config : Config) {context : Context} (htexts : TextEntries context) :
    renderText packagedText config context =
      Document.performAll ⟨config, []⟩ (packagedCalls (packagedTexts context)) >>=
        Document.render := by
  rw [renderText, program?_packaged]
  exact run_packaged config htexts

/-- The packaged template and its script end alike: with the same label, or with the same fault,
which only a width that is too long to be written can cause.  The template may stand in any
directory, and its context may hold anything besides the four entries, under any names. -/
theorem render_packaged {tree : Storage.Tree} {dir : Storage.Path} {context : Context}
    (hfile : tree.get? (dir ++ [packagedName]) = some (.file packagedText))
    (hconfig : config.Valid) (htexts : TextEntries context) :
    ∃ outcome : Except Fault Script.Result,
      Script.run (packagedScript (packagedTexts context)) config = Script.liftFault outcome ∧
      render tree dir packagedName config context = (outcome.map (·.document)).mapError .fault ∧
      (config.maxWidth.Short → ∃ result, outcome = .ok result) := by
  obtain ⟨outcome, hrun, hdocument, htotal⟩ :=
    Script.runUnder_of_calls config (packagedSteps_mean (packagedTexts context))
  refine ⟨outcome, ?_, ?_, ?_⟩
  · rw [run_packagedScript hconfig, hrun]
  · rw [render_of_find? (find?_packaged hfile), renderText_packaged config htexts, hdocument]
  · intro hwidth
    exact htotal
      (Document.performAll_of_forall ⟨config, []⟩ (emit_packagedCalls hwidth (packagedTexts context)))

/-- A context whose entries have the names of the label, of an enumeration and of what the template
sets. -/
def crowdedContext : Context :=
  [("zpl", .integer 1), ("Color", .null), ("z", .text "^XZ"), ("texto", .text "Caixa_7"),
    ("codigo", .text "0042")]

theorem render_packaged_crowded :
    ∃ result, Script.run (packagedScript ⟨"Caixa_7", "", "0042", "Caixa_7"⟩) {} = .ok result ∧
      render packagedTree [] packagedName {} crowdedContext = .ok result.document := by
  have htexts : TextEntries crowdedContext := by
    simp only [TextEntries, packagedEntries, List.forall_mem_cons]
    exact ⟨Or.inr ⟨_, rfl⟩, Or.inl rfl, Or.inr ⟨_, rfl⟩, Or.inl rfl, List.forall_mem_nil _⟩
  have hfile : packagedTree.get? ([] ++ [packagedName]) = some (.file packagedText) := rfl
  have hconfig : Config.Valid {} := ⟨203, 710, true, by decide, by decide, rfl⟩
  have hlabel : packagedTexts crowdedContext = ⟨"Caixa_7", "", "0042", "Caixa_7"⟩ := rfl
  obtain ⟨outcome, hrun, hrender, hok⟩ := render_packaged hfile hconfig htexts
  obtain ⟨result, rfl⟩ := hok (by decide)
  rw [hlabel] at hrun
  exact ⟨result, hrun, hrender⟩

end Template

end ThermalLabel
