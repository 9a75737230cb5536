import ThermalLabel.Proofs.Http.Accounts
import ThermalLabel.Proofs.Storage.Seeding
import ThermalLabel.Proofs.Template.Directory

/-!
# The list of templates and the templates

A template that is listed is found under its name, with and without its suffix, and no other name
leads to a template.  A directory with the name of a template is listed too, and never found.

Which templates are found is up to the engine.  Of it nothing is supposed but that a name without a
slash leads to the regular file of that name.
-/
namespace ThermalLabel.Http

open Storage (templatesDir)
open Template (isTemplateName)

variable {p : Platform} {config : Config} {data : Storage.Tree} {r : Request} {name : String}

/-- The engine finds a template exactly if a regular file of the template directory has its name. -/
def Platform.Loads (p : Platform) (data : Storage.Tree) : Prop :=
  ∀ name config context, isTemplateName name = true → '/' ∉ name.toList →
    (p.render data templatesDir name config context = .error .notFound ↔
      ∀ text, data.get? (templatesDir ++ [name]) ≠ some (.file text))

theorem loads_ofLevels (levels : Nat) (data : Storage.Tree) :
    (Platform.ofLevels levels).Loads data := by
  intro name config context htemplate hslash
  rw [Platform.ofLevels, Template.render_eq_notFound_iff, Option.eq_none_iff_forall_ne_some]
  simp only [ne_eq, Template.find?_eq_some_iff htemplate hslash]

/-- What is listed is found, unless it is a directory. -/
theorem Platform.Loads.render_eq_notFound_iff (h : p.Loads data)
    (htemplate : isTemplateName name = true) (hslash : '/' ∉ name.toList)
    (config : Config) (context : Template.Context) :
    p.render data templatesDir name config context = .error .notFound ↔
      name ∉ Template.list data templatesDir ∨
        data.isDirectory (templatesDir ++ [name]) = true := by
  rw [h name config context htemplate hslash, Template.mem_list, Storage.Tree.isDirectory,
    beq_iff_eq]
  cases data.get? (templatesDir ++ [name]) with
  | none => simp
  | some n => cases n <;> simp [htemplate]

/-! ### Names in paths -/

/-- A template is asked for by this name. -/
structure Request.PostsTo (r : Request) (name : String) : Prop where
  path : r.path = "/api/templates/" ++ name
  verb : r.verb = "POST"

theorem ofPath?_template (hname : name ≠ "") (hslash : '/' ∉ name.toList) :
    Route.ofPath? ("/api/templates/" ++ name) = some (.template name) := by
  have hrest : "/api/templates/" ++ name =
      "" ++ String.ofList ('/' :: ("api".toList ++ '/' :: ("templates".toList ++ '/' ::
        name.toList))) := by
    rw [← String.toList_inj]
    simp
  have hsegments : Text.splitString '/' ("/api/templates/" ++ name) =
      ["", "api", "templates", name] := by
    rw [hrest, Text.splitString_append (by decide), String.ofList_append, String.ofList_toList,
      Text.splitString_append (by decide), String.ofList_append, String.ofList_toList,
      Text.splitString_append (by decide), String.ofList_toList,
      Text.splitString_of_not_mem hslash]
  rw [Route.ofPath?, hsegments, Route.ofSegments?, if_neg hname]

theorem Request.PostsTo.resolve (h : r.PostsTo name) (hname : name ≠ "")
    (hslash : '/' ∉ name.toList) : resolve r.path r.verb = .route (.template name) := by
  have hallows : (Route.template name).allows "POST" = true := by
    simp [Route.allows, Route.methods, Route.isQuery]
  rw [Http.resolve, h.path, h.verb, ofPath?_template hname hslash]
  simp [hallows]

/-! ### Files of templates -/

theorem isTemplateName_templateFile (name : String) :
    isTemplateName (templateFile name) = true := by
  unfold templateFile
  split
  · assumption
  · simp [isTemplateName]

theorem templateFile_of_isTemplateName (h : isTemplateName name = true) :
    templateFile name = name := if_pos h

theorem slash_not_mem_templateFile (h : '/' ∉ name.toList) : '/' ∉ (templateFile name).toList := by
  unfold templateFile
  split
  · exact h
  · have hsuffix : '/' ∉ Template.templateSuffix := by decide +kernel
    simp [h, hsuffix]

/-! ### Answers -/

/-- The answer says whether the template was found, unless it was not looked for. -/
theorem answerTemplate_status (h : p.Loads data) (hslash : '/' ∉ name.toList) (config : Config)
    (body : Value) :
    ((answerTemplate p config data name body).response.status = 404 ↔
      contextOf? body ≠ none ∧ (templateFile name ∉ Template.list data templatesDir ∨
        data.isDirectory (templatesDir ++ [templateFile name]) = true)) ∧
    ((answerTemplate p config data name body).response.status = 200 →
      templateFile name ∈ Template.list data templatesDir ∧
        data.isDirectory (templatesDir ++ [templateFile name]) = false) := by
  unfold answerTemplate
  cases hcontext : contextOf? body with
  | none => simp [Answer.silent, Response.refusal]
  | some context =>
    have hfound := h.render_eq_notFound_iff (isTemplateName_templateFile name)
      (slash_not_mem_templateFile hslash) config context
    dsimp only
    rw [← hfound]
    generalize p.render data templatesDir (templateFile name) config context = result
      at hfound ⊢
    cases result with
    | error e =>
      cases e with
      | notFound => simp [Answer.silent, Response.refusal]
      | fault | raised => simp [Answer.failed, Response.refusal]
    | ok s =>
      have hlisted := mt hfound.mpr (by simp)
      rw [not_or, Decidable.not_not, Bool.not_eq_true] at hlisted
      dsimp only
      generalize [_] = notes
      rcases Answer.document_status s notes with h | h <;> simp [h, hlisted]

/-- A template is looked for if the body of the request is a context. -/
theorem answerRoute_template_status (h : p.Loads data) (hslash : '/' ∉ name.toList)
    (config : Config) (r : Request) :
    ((answerRoute p config data r (.template name)).response.status = 404 ↔
      (r.json? p.levels).bind contextOf? ≠ none ∧
        (templateFile name ∉ Template.list data templatesDir ∨
          data.isDirectory (templatesDir ++ [templateFile name]) = true)) ∧
    ((answerRoute p config data r (.template name)).response.status = 200 →
      templateFile name ∈ Template.list data templatesDir ∧
        data.isDirectory (templatesDir ++ [templateFile name]) = false) := by
  rw [answerRoute, withBody]
  cases r.json? p.levels with
  | none => simp [Answer.crashed, Response.refusal]
  | some body => exact answerTemplate_status h hslash config body

theorem answer_templates (hroute : resolve r.path r.verb = .route .templates)
    (hget : r.verb = "GET") (p : Platform) (config : Config) (data : Storage.Tree) :
    (answer p config data r).response.content =
      .json (.object [("templates", nameList (Template.list data templatesDir))]) := by
  rw [answer_of_get_or_post hroute (.inl hget) rfl]
  rfl

/-- Listing and finding templates agree but for directories.  The list is in strict order and is
what the service sends.  A name that no directory bears is listed if it can be rendered, and only
then; a directory with the name of a template is listed and cannot be rendered.  A request for a
template, by its listed name or without the suffix, is answered with 404 if the template is not
listed, or is a directory, and for no other reason once its context is in order; what it gets a
document from is listed. -/
theorem list_agrees (hdata : data.Distinct) (hloads : p.Loads data) :
    (Template.list data templatesDir).Pairwise (· < ·) ∧
    (∀ config r, resolve r.path r.verb = .route .templates → r.verb = "GET" →
      (answer p config data r).response.content =
        .json (.object [("templates", nameList (Template.list data templatesDir))])) ∧
    (∀ name, isTemplateName name = true → '/' ∉ name.toList → templateFile name = name ∧
      (data.isDirectory (templatesDir ++ [name]) = false → ∀ config context,
        (name ∈ Template.list data templatesDir ↔
          p.render data templatesDir name config context ≠ .error .notFound)) ∧
      (data.isDirectory (templatesDir ++ [name]) = true →
        name ∈ Template.list data templatesDir ∧ ∀ config context,
          p.render data templatesDir name config context = .error .notFound)) ∧
    ∀ name r config, name ≠ "" → '/' ∉ name.toList → r.PostsTo name →
      ((answer p config data r).response.status = 404 ↔
        (r.json? p.levels).bind contextOf? ≠ none ∧
        (templateFile name ∉ Template.list data templatesDir ∨
          data.isDirectory (templatesDir ++ [templateFile name]) = true)) ∧
      ((answer p config data r).response.status = 200 →
        templateFile name ∈ Template.list data templatesDir ∧
          data.isDirectory (templatesDir ++ [templateFile name]) = false) := by
  refine ⟨Template.list_pairwise_lt hdata _, ?_, ?_, ?_⟩
  · intro config r hroute hget
    exact answer_templates hroute hget p config data
  · intro name htemplate hslash
    refine ⟨templateFile_of_isTemplateName htemplate, ?_, ?_⟩
    · intro hfile config context
      rw [Ne, hloads.render_eq_notFound_iff htemplate hslash, hfile]
      simp
    · intro hdirectory
      refine ⟨Template.mem_list_of_isDirectory htemplate hdirectory, fun config context => ?_⟩
      exact (hloads.render_eq_notFound_iff htemplate hslash config context).mpr (.inr hdirectory)
  · intro name r config hname hslash hpost
    rw [answer_of_get_or_post (hpost.resolve hname hslash) (.inr hpost.verb) rfl,
      Answer.shared_status]
    exact answerRoute_template_status hloads hslash config r

/-- A request for the packaged template, without its suffix. -/
def samplePost : Request where
  method := "POST"
  target := "/api/templates/sample_default"

/-- The packaged template in a new data directory. -/
theorem list_agrees_seeded :
    let data := (Storage.setUp (some Template.packagedTree) {}).1
    data.Distinct ∧
    (∀ config context, (Platform.ofLevels 64).render data templatesDir "sample_default.zpl.j2"
      config context ≠ .error .notFound) ∧
    ∀ config, (answer (.ofLevels 64) config data samplePost).response.status ≠ 404 := by
  intro data
  have hdata : data.Distinct := Storage.setUpAt_distinct [] _ (by decide)
  have hlisted : "sample_default.zpl.j2" ∈ Template.list data templatesDir := by decide +kernel
  have hfile : data.isDirectory (templatesDir ++ ["sample_default.zpl.j2"]) = false := by
    decide +kernel
  obtain ⟨-, -, hrender, hpost⟩ :=
    list_agrees hdata (loads_ofLevels 64 data)
  refine ⟨hdata, fun config context => ?_, fun config hmissing => ?_⟩
  · obtain ⟨-, hfound, -⟩ :=
      hrender "sample_default.zpl.j2" (by decide +kernel) (by decide +kernel)
    exact (hfound hfile config context).mp hlisted
  · have hposts : samplePost.PostsTo "sample_default" := ⟨by decide +kernel, by decide +kernel⟩
    have hname : templateFile "sample_default" = "sample_default.zpl.j2" := by decide +kernel
    have hreason := ((hpost _ _ config (by decide) (by decide) hposts).1.mp hmissing).2
    rw [hname, hfile] at hreason
    simp [hlisted] at hreason

/-- A directory in the template directory, with the name of a template. -/
def folderTree : Storage.Tree :=
  ⟨[(["zpl_templates"], .directory), (["zpl_templates", "sample_default.zpl.j2"], .directory)]⟩

/-- The directory is listed, and neither rendered nor found by a request. -/
theorem list_disagrees_folder :
    "sample_default.zpl.j2" ∈ Template.list folderTree templatesDir ∧
    Template.render folderTree templatesDir "sample_default.zpl.j2" {} [] = .error .notFound ∧
    (answer (.ofLevels 64) {} folderTree samplePost).response.status = 404 := by
  decide +kernel

end ThermalLabel.Http
