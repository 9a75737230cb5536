import Mathlib.Data.List.Forall2
import ThermalLabel.Proofs.Http.Answers

/-!
# The journal over a sequence of requests

Whatever is asked of a service, its audit file gains a line for every document that was made, in
order and with its length, its error file gains a line for every script that was refused and every
failure, and nothing else is written.  A document that was made is returned, unless a template made
one without a form in octets; the failure to send it is then written as well.

The template engine can be any.  What it makes of a template is taken as it comes; that rendering
ends and does nothing else is all that is supposed of it.
-/
namespace ThermalLabel.Http

open Log (Channel)

namespace Request

/-- The request runs a script. -/
def asksScript (r : Request) : Bool :=
  r.verb == "POST" && resolve r.path r.verb == .route .render

/-- The request renders a template. -/
def asksTemplate (r : Request) : Bool :=
  r.verb == "POST" && match resolve r.path r.verb with
    | .route (.template _) => true
    | _ => false

/-- What the engine of a site makes of a request, if a template is asked for. -/
def rendering? (r : Request) (site : Site) : Option (Except Template.RenderError Text) :=
  match r.verb == "POST", resolve r.path r.verb with
  | true, .route (.template name) =>
    (r.json? site.platform.levels).bind
      (renderingOf? site.platform site.config site.data name)
  | _, _ => none

end Request

/-- A request and the response to it. -/
abbrev Exchange := Request × Response

namespace Exchange

/-- A document was asked for and returned. -/
def isRendered (x : Exchange) : Bool :=
  x.2.status == 200 && (x.1.asksScript || x.1.asksTemplate)

/-- A script was refused, or the service failed. -/
def isFailed (x : Exchange) : Bool :=
  x.2.status == 400 && x.1.asksScript || x.2.status == 500

/-- The document that was made: the one that is returned, or one that could not be sent. -/
def document? (site : Site) (x : Exchange) : Option Text :=
  x.2.content.document?.or (unsent? (x.1.rendering? site))

/-- A document was made. -/
def isAudited (site : Site) (x : Exchange) : Bool :=
  x.isRendered || x.2.status == 500 && (unsent? (x.1.rendering? site)).isSome

/-- A failure that can be told. -/
def isReported (site : Site) (x : Exchange) : Bool :=
  x.isFailed && !isSpeechless (x.1.rendering? site)

/-- The exchanges that the file of a channel accounts for. -/
def isDue (site : Site) : Channel → Exchange → Bool
  | .service, _ => false
  | .audit, x => x.isAudited site
  | .error, x => x.isReported site

/-- The lengths of the steps and of the document fit the memory. -/
structure Sized (site : Site) (x : Exchange) : Prop where
  steps : ∀ script steps, x.1.json? site.platform.levels = some script →
    Script.steps? script = some steps → FitsMemory steps.length
  document : ∀ d, x.document? site = some d → FitsMemory d.length

instance (site : Site) (x : Exchange) : Decidable (x.Sized site) :=
  decidable_of_iff
    ((∀ script ∈ x.1.json? site.platform.levels, ∀ steps ∈ Script.steps? script,
        FitsMemory steps.length) ∧ ∀ d ∈ x.document? site, FitsMemory d.length)
    ⟨fun ⟨hsteps, hdocument⟩ => ⟨fun script steps hjson => hsteps script hjson steps, hdocument⟩,
      fun h => ⟨fun script hjson steps => h.steps script steps hjson, h.document⟩⟩

end Exchange

/-- The line says whose request it is about. -/
structure Names (entry : Fields) (x : Exchange) : Prop where
  method : entry.get? "method" = some (.text (Text.ofString x.1.verb))
  path : entry.get? "path" = some (.text (Text.ofString x.1.path))

/-- The line also gives the length of the document, and for a script the number of its steps. -/
structure Measures (site : Site) (entry : Fields) (x : Exchange) : Prop extends Names entry x where
  length : ∃ d, x.document? site = some d ∧ entry.get? "length" = some (.integer d.length)
  operations : x.1.asksScript = true → ∃ script steps,
    x.1.json? site.platform.levels = some script ∧ Script.steps? script = some steps ∧
    entry.get? "operations" = some (.integer steps.length)

/-- What the line of an exchange says in the file of a channel. -/
def Accounts (site : Site) : Channel → Fields → Exchange → Prop
  | .audit => Measures site
  | _ => Names

/-! ### One request -/

/-- The notes of an answer are those that its exchange calls for. -/
inductive Noted (site : Site) (x : Exchange) (notes : List Note) : Prop
  | rendered (note : Note) (hnotes : notes = [note]) (haudited : x.isAudited site = true)
    (hreported : x.isReported site = false) (hreport : note.report = .audit)
    (hwritten : note.Written)
    (hmeasures : ∀ entry, Service.Tells note x.1 entry → Measures site entry x)
  | unsent (audit note : Note) (hnotes : notes = [audit, note]) (haudited : x.isAudited site = true)
    (hreported : x.isReported site = true) (haudit : audit.report = .audit)
    (hwritten : audit.Written)
    (hmeasures : ∀ entry, Service.Tells audit x.1 entry → Measures site entry x)
    (hreport : note.report.channel = .error) (hnote : note.Written)
  | failed (note : Note) (hnotes : notes = [note]) (haudited : x.isAudited site = false)
    (hreported : x.isReported site = true) (hreport : note.report.channel = .error)
    (hwritten : note.Written)
  | speechless (note : Note) (hnotes : notes = [note]) (haudited : x.isAudited site = false)
    (hreported : x.isReported site = false) (hreport : note.report.channel = .error)
    (hnames : ∀ e ∈ note.extras, e.1 ∈ noteNames)
    (hlost : (Service.noteEvent note x.1).line? = none)
  | silent (hnotes : notes = []) (haudited : x.isAudited site = false)
    (hreported : x.isReported site = false)

theorem allows_of_resolve {path verb : String} {route : Route}
    (h : resolve path verb = .route route) : route.allows verb = true := by
  unfold resolve at h
  split at h
  · split at h
    · cases h
      assumption
    · cases h
  · split at h
    · split at h <;> cases h
    · cases h

/-- Away from questions about methods, an answer is that of its route, perhaps without content. -/
theorem answer_of_route {r : Request} {route : Route}
    (hresolve : resolve r.path r.verb = .route route) (hverb : r.verb ≠ "OPTIONS")
    (p : Platform) (config : Config) (data : Storage.Tree) :
    (answer p config data r).notes = (answerRoute p config data r route).notes ∧
    (answer p config data r).response.status =
      (answerRoute p config data r route).response.status ∧
    (r.verb = "POST" → (answer p config data r).response.content =
      (answerRoute p config data r route).response.content) := by
  simp only [answer, hresolve, answerMatched, if_neg hverb]
  split
  · exact ⟨rfl, rfl, fun _ => rfl⟩
  · rename_i hcontent
    refine ⟨rfl, rfl, fun hpost => absurd ?_ hcontent⟩
    apply Request.wantsContent_of_verb
    rw [hpost]
    decide

/-- The answer may be used by pages of any origin. -/
def Answer.shared (a : Answer) : Answer :=
  { a with response := { a.response with shared := true } }

theorem Answer.shared_status (a : Answer) : a.shared.response.status = a.response.status := rfl

/-- What is asked for or posted is answered by its route. -/
theorem answer_of_get_or_post {r : Request} {route : Route}
    (hresolve : resolve r.path r.verb = .route route) (hverb : r.verb = "GET" ∨ r.verb = "POST")
    (hshared : route.isShared = true) (p : Platform) (config : Config) (data : Storage.Tree) :
    answer p config data r = (answerRoute p config data r route).shared := by
  have hoptions : r.verb ≠ "OPTIONS" := by
    rcases hverb with h | h <;> rw [h] <;> decide
  have hcontent : r.wantsContent = true := by
    apply Request.wantsContent_of_verb
    rcases hverb with h | h <;> rw [h] <;> decide
  rw [answer, hresolve]
  simp only [answerMatched, if_neg hoptions, hcontent, if_true, hshared]
  rfl

/-- Requests that ask for no label. -/
theorem not_asks_of_isQuery {r : Request} {route : Route}
    (hresolve : resolve r.path r.verb = .route route) (hquery : route.isQuery = true) :
    r.asksScript = false ∧ r.asksTemplate = false := by
  simp only [Request.asksScript, Request.asksTemplate, hresolve]
  cases route <;> simp_all [Route.isQuery]

/-- A script is posted, and so is the context of a template. -/
theorem verb_of_not_isQuery {r : Request} {route : Route}
    (hresolve : resolve r.path r.verb = .route route) (hquery : route.isQuery = false)
    (hverb : r.verb ≠ "OPTIONS") : r.verb = "POST" := by
  have hallows := allows_of_resolve hresolve
  simpa [Route.allows, Route.methods, hquery, hverb] using hallows

theorem rendering?_of_not_asksTemplate {r : Request} (h : r.asksTemplate = false) (site : Site) :
    r.rendering? site = none := by
  unfold Request.asksTemplate at h
  unfold Request.rendering?
  split
  · simp_all
  · rfl

section Labels

variable {site : Site} {r : Request} {a : Answer} {response : Response}

/-- What is due for an exchange in which no template is asked for. -/
theorem due_of_not_asksTemplate (h : r.asksTemplate = false) (site : Site) (response : Response) :
    Exchange.isAudited site (r, response) = (response.status == 200 && r.asksScript) ∧
    Exchange.isReported site (r, response) =
      (response.status == 400 && r.asksScript || response.status == 500) := by
  simp [Exchange.isAudited, Exchange.isReported, Exchange.isRendered, Exchange.isFailed, h,
    rendering?_of_not_asksTemplate h, unsent?, isSpeechless]

theorem silent_noted (hscript : r.asksScript = false) (htemplate : r.asksTemplate = false)
    (hstatus : response.status ≠ 500) : Noted site (r, response) [] := by
  obtain ⟨haudited, hreported⟩ := due_of_not_asksTemplate htemplate site response
  refine .silent rfl ?_ ?_
  · simp [haudited, hscript]
  · simp [hreported, hscript, hstatus]

/-- A failure is noted. -/
theorem reports_noted {x : Exchange} {status : Nat} (h : a.Reports status)
    (haudited : x.isAudited site = false) (hreported : x.isReported site = true) :
    Noted site x a.notes := by
  obtain ⟨-, note, hnotes, hreport, hwritten⟩ := h
  exact .failed note hnotes haudited hreported hreport hwritten

/-- The line of a note that gives the length of a document. -/
theorem measures_of_tells {x : Exchange} {note : Note} {d : Text} (h : Answer.Audits d note)
    (hdocument : x.document? site = some d)
    (hmore : x.1.asksScript = true → ∃ script steps,
      x.1.json? site.platform.levels = some script ∧ Script.steps? script = some steps ∧
      Fields.get? note.extras.reverse "operations" = some (.integer steps.length)) :
    ∀ entry, Service.Tells note x.1 entry → Measures site entry x := by
  intro entry htells
  refine ⟨⟨htells.method, htells.path⟩, ⟨d, hdocument, ?_⟩, fun hscript => ?_⟩
  · rw [htells.extras _ mem_noteNames.2.1, h.length]
  · rw [htells.extras _ mem_noteNames.1]
    exact hmore hscript

/-- A question is noted if it fails. -/
theorem query_noted (h : a.Silent ∨ a.Reports 500) (hstatus : response.status = a.response.status)
    (hscript : r.asksScript = false) (htemplate : r.asksTemplate = false) :
    Noted site (r, response) a.notes := by
  rcases h with hsilent | hreports
  · rw [hsilent.1]
    exact silent_noted hscript htemplate (ne_of_eq_of_ne hstatus hsilent.2)
  · obtain ⟨haudited, hreported⟩ := due_of_not_asksTemplate htemplate site response
    refine reports_noted hreports ?_ ?_
    · simp [haudited, hscript]
    · simp [hreported, hstatus, hreports.1]

/-- A script is noted however it ends. -/
theorem script_noted (hasks : r.asksScript = true) (htemplate : r.asksTemplate = false)
    (h : a.Rendered (fun extras => ∃ script steps, r.json? site.platform.levels = some script ∧
        Script.steps? script = some steps ∧
        extras.get? "operations" = some (.integer steps.length)) ∨
      a.Reports 400 ∨ a.Reports 500)
    (hstatus : response.status = a.response.status)
    (hcontent : response.content = a.response.content) : Noted site (r, response) a.notes := by
  obtain ⟨haudited, hreported⟩ := due_of_not_asksTemplate htemplate site response
  rcases h with hrendered | hrefused | hreports
  · obtain ⟨ha, note, d, hnotes, haudits, hdocument, hmore⟩ := hrendered
    have hmade : Exchange.document? site (r, response) = some d := by
      simp [Exchange.document?, hcontent, hdocument]
    refine .rendered note hnotes ?_ ?_ haudits.report haudits.written
      (measures_of_tells haudits hmade fun _ => hmore)
    · simp [haudited, hstatus, ha, hasks]
    · simp [hreported, hstatus, ha]
  · refine reports_noted hrefused ?_ ?_
    · simp [haudited, hstatus, hrefused.1]
    · simp [hreported, hstatus, hrefused.1, hasks]
  · refine reports_noted hreports ?_ ?_
    · simp [haudited, hstatus, hreports.1]
    · simp [hreported, hstatus, hreports.1]

/-- A template is noted unless it is not found or not given a context. -/
theorem template_noted (hscript : r.asksScript = false) (hasks : r.asksTemplate = true)
    (h : TemplateNoted (r.rendering? site) a) (hstatus : response.status = a.response.status)
    (hcontent : response.content = a.response.content) : Noted site (r, response) a.notes := by
  cases h with
  | rendered hrendered hsent hspoken =>
    obtain ⟨ha, note, d, hnotes, haudits, hdocument, -⟩ := hrendered
    have hmade : Exchange.document? site (r, response) = some d := by
      simp [Exchange.document?, hcontent, hdocument]
    refine .rendered note hnotes ?_ ?_ haudits.report haudits.written
      (measures_of_tells haudits hmade fun h => absurd h (by simp [hscript]))
    · simp [Exchange.isAudited, Exchange.isRendered, hstatus, ha, hasks]
    · simp [Exchange.isReported, Exchange.isFailed, hstatus, ha]
  | refused hnotes hrefused hsent hspoken =>
    refine .silent hnotes ?_ ?_
    · rcases hrefused with h | h <;>
        simp [Exchange.isAudited, Exchange.isRendered, hstatus, h]
    · rcases hrefused with h | h <;>
        simp [Exchange.isReported, Exchange.isFailed, hstatus, h, hscript]
  | failed hreports hsent hspoken =>
    refine reports_noted hreports ?_ ?_
    · simp [Exchange.isAudited, Exchange.isRendered, hstatus, hreports.1, hsent]
    · simp [Exchange.isReported, Exchange.isFailed, hstatus, hreports.1, hspoken]
  | unsent d hunsent hdocument hcontentless hspoken =>
    obtain ⟨ha, audit, note, hnotes, haudits, hreport, hwritten⟩ := hunsent
    have hmade : Exchange.document? site (r, response) = some d := by
      simp [Exchange.document?, hcontent, hcontentless, hdocument]
    refine .unsent audit note hnotes ?_ ?_ haudits.report haudits.written
      (measures_of_tells haudits hmade fun h => absurd h (by simp [hscript])) hreport hwritten
    · simp [Exchange.isAudited, hstatus, ha, hdocument]
    · simp [Exchange.isReported, Exchange.isFailed, hstatus, ha, hspoken]
  | speechless hspeechless hsent hlost =>
    obtain ⟨ha, note, hnotes, hreport, hnames, hline⟩ := hspeechless
    refine .speechless note hnotes ?_ ?_ hreport hnames (hline r)
    · simp [Exchange.isAudited, Exchange.isRendered, hstatus, ha, hsent]
    · simp [Exchange.isReported, hlost]

end Labels

section Answers

variable {site : Site} {r : Request}

/-- The answer of a service to a request, by its route. -/
abbrev Site.answerRoute (site : Site) (r : Request) (route : Route) : Answer :=
  Http.answerRoute site.platform site.config site.data r route

theorem answerRoute_render (hbody : ∀ v, r.json? site.platform.levels = some v → v.Unbroken)
    (hsized : Exchange.Sized site (r, (site.answerRoute r .render).response)) :
    (site.answerRoute r .render).Rendered (fun extras => ∃ script steps,
        r.json? site.platform.levels = some script ∧ Script.steps? script = some steps ∧
        extras.get? "operations" = some (.integer steps.length)) ∨
      (site.answerRoute r .render).Reports 400 ∨ (site.answerRoute r .render).Reports 500 := by
  rw [Site.answerRoute, answerRoute] at hsized ⊢
  rcases withBody_eq (p := site.platform) (r := r) with ⟨script, hjson, heq⟩ | ⟨-, hreports⟩
  · rw [heq] at hsized ⊢
    have hdocument : ∀ d, (answerRender site.config script).response.content.document? = some d →
        FitsMemory d.length := fun d hd => hsized.document d (by simp [Exchange.document?, hd])
    refine (answerRender_noted site.config (hbody script hjson) (short_of_json? hjson)
      (fun steps => hsized.steps script steps hjson) hdocument).imp_left ?_
    rintro ⟨hstatus, note, d, hnotes, haudits, hdocument, steps, hsteps, hcount⟩
    exact ⟨hstatus, note, d, hnotes, haudits, hdocument, script, steps, hjson, hsteps, hcount⟩
  · exact .inr (.inr hreports)

theorem answerRoute_template {name : String}
    (hresolve : resolve r.path r.verb = .route (.template name)) (hpost : r.verb = "POST")
    (hsized : Exchange.Sized site (r, (site.answerRoute r (.template name)).response)) :
    TemplateNoted (r.rendering? site) (site.answerRoute r (.template name)) := by
  have hrendering : r.rendering? site =
      (r.json? site.platform.levels).bind
        (renderingOf? site.platform site.config site.data name) := by
    simp only [Request.rendering?, hresolve]
    simp [hpost]
  rw [Site.answerRoute, answerRoute] at hsized ⊢
  rcases withBody_eq (p := site.platform) (r := r) with ⟨body, hjson, heq⟩ | ⟨hnone, hreports⟩
  · rw [heq] at hsized ⊢
    have hdocument := hsized.document
    rw [Exchange.document?, hrendering, hjson, Option.bind_some] at hdocument
    rw [hrendering, hjson, Option.bind_some]
    exact answerTemplate_noted site.platform site.config site.data name body hdocument
  · rw [hrendering, hnone]
    exact .failed hreports rfl rfl

end Answers

section Requests

variable {site : Site} {r : Request}

/-- Without a route there is nothing to be noted. -/
theorem answer_noted_of_no_route (h : ∀ route, resolve r.path r.verb ≠ .route route) :
    Noted site (r, (site.answer r).response) (site.answer r).notes := by
  cases hresolve : resolve r.path r.verb with
  | route route => exact absurd hresolve (h route)
  | moved | notFound | notAllowed =>
    have hanswer : (site.answer r).notes = [] ∧ (site.answer r).response.status ≠ 500 := by
      simp [Site.answer, answer, hresolve, Answer.silent]
    rw [hanswer.1]
    refine silent_noted ?_ ?_ hanswer.2
    · simp [Request.asksScript, hresolve]
    · simp [Request.asksTemplate, hresolve]

/-- Questions about methods are not noted. -/
theorem answer_noted_of_options {route : Route} (hresolve : resolve r.path r.verb = .route route)
    (hverb : r.verb = "OPTIONS") :
    Noted site (r, (site.answer r).response) (site.answer r).notes := by
  have hanswer : (site.answer r).notes = [] ∧ (site.answer r).response.status ≠ 500 := by
    simp only [Site.answer, answer, hresolve, answerMatched, if_pos hverb, Answer.silent,
      true_and]
    split <;> decide
  rw [hanswer.1]
  refine silent_noted ?_ ?_ hanswer.2
  · simp [Request.asksScript, hverb]
  · simp [Request.asksTemplate, hverb]

/-- The answer of a route to any other method is noted as its status calls for. -/
theorem answer_noted_of_route {route : Route} (hresolve : resolve r.path r.verb = .route route)
    (hverb : r.verb ≠ "OPTIONS") (hbody : ∀ v, r.json? site.platform.levels = some v → v.Unbroken)
    (hsized : Exchange.Sized site (r, (site.answer r).response)) :
    Noted site (r, (site.answer r).response) (site.answer r).notes := by
  obtain ⟨hnotes, hstatus, hcontent⟩ :=
    answer_of_route hresolve hverb site.platform site.config site.data
  rw [Site.answer] at hsized ⊢
  rw [hnotes]
  generalize (answer site.platform site.config site.data r).response = response
    at hsized hstatus hcontent ⊢
  cases hquery : route.isQuery with
  | true =>
    obtain ⟨hscript, htemplate⟩ := not_asks_of_isQuery hresolve hquery
    exact query_noted (answerRoute_noted hquery site.platform site.config site.data r) hstatus
      hscript
      htemplate
  | false =>
    have hpost := verb_of_not_isQuery hresolve hquery hverb
    have hsized' : Exchange.Sized site (r, (site.answerRoute r route).response) := by
      refine ⟨hsized.steps, ?_⟩
      rw [Exchange.document?, ← hcontent hpost]
      exact hsized.document
    cases route with
    | render =>
      have hasks : r.asksScript = true ∧ r.asksTemplate = false := by
        simp only [Request.asksScript, Request.asksTemplate, hresolve]
        simp [hpost]
      exact script_noted hasks.1 hasks.2 (answerRoute_render hbody hsized') hstatus
        (hcontent hpost)
    | template name =>
      have hscript : r.asksScript = false := by simp [Request.asksScript, hresolve]
      have hasks : r.asksTemplate = true := by
        simp only [Request.asksTemplate, hresolve]
        simp [hpost]
      exact template_noted hscript hasks (answerRoute_template hresolve hpost hsized') hstatus
        (hcontent hpost)
    | _ => cases hquery

theorem answer_noted (hbody : ∀ v, r.json? site.platform.levels = some v → v.Unbroken)
    (hsized : Exchange.Sized site (r, (site.answer r).response)) :
    Noted site (r, (site.answer r).response) (site.answer r).notes := by
  by_cases hroute : ∃ route, resolve r.path r.verb = .route route
  · obtain ⟨route, hresolve⟩ := hroute
    by_cases hverb : r.verb = "OPTIONS"
    · exact answer_noted_of_options hresolve hverb
    · exact answer_noted_of_route hresolve hverb hbody hsized
  · exact answer_noted_of_no_route fun route hresolve => hroute ⟨route, hresolve⟩

/-- With the engine of this library and templates without a backslash, the documents that are made
are those that are returned, and every failure is told. -/
theorem due_ofLevels {levels : Nat} (hplatform : site.platform = .ofLevels levels)
    (hwidth : site.config.maxWidth.Clean)
    (hplain : ∀ name text, Template.find? site.data Storage.templatesDir name = some text →
      Template.IsPlain text.toList)
    (hbody : ∀ v, r.json? levels = some v → v.Unbroken) (response : Response) :
    Exchange.isAudited site (r, response) = Exchange.isRendered (r, response) ∧
      Exchange.isReported site (r, response) = Exchange.isFailed (r, response) := by
  have hsound : unsent? (r.rendering? site) = none ∧ isSpeechless (r.rendering? site) = false := by
    unfold Request.rendering?
    split
    · rename_i name _ _
      rw [hplatform]
      cases hjson : r.json? (Platform.ofLevels levels).levels with
      | none => exact ⟨rfl, rfl⟩
      | some body => exact renderingOf?_ofLevels hwidth hplain levels name (hbody body hjson)
    · exact ⟨rfl, rfl⟩
  simp [Exchange.isAudited, Exchange.isReported, hsound]

end Requests

/-! ### A sequence of requests -/

namespace Service

open Log (Journal LogFile)

variable {s : Service} {site : Site}

/-- The journal is set up as the service does it. -/
structure Ready (s : Service) : Prop where
  journal : s.journal.Ready false Journal.defaultKept

/-- The files that are left when as many dated ones are kept as the service asks for. -/
abbrev Grows := LogFile.Grows Journal.defaultKept.toNat

theorem keeps_defaultKept : Log.KeepsAtLeast Journal.defaultKept.toNat Journal.defaultKept :=
  .inr (by decide)

/-- The lines that the notes of a request leave in the file of a channel. -/
def linesOf (r : Request) (notes : List Note) (c : Channel) : List Fields :=
  notes.flatMap fun note =>
    if c = note.report.channel then (noteEvent note r).line?.toList else []

/-- Recording notes adds their lines, and leaves the other files alone. -/
theorem record_grows {j : Journal} (hj : j.Ready false Journal.defaultKept) {notes : List Note}
    (hnames : ∀ note ∈ notes, ∀ e ∈ note.extras, e.1 ∈ noteNames) (r : Request) :
    (notes.foldl (record r) j).Ready false Journal.defaultKept ∧
    ∀ c, Grows (linesOf r notes c) (j.file c) ((notes.foldl (record r) j).file c) ∧
      ((∀ note ∈ notes, note.report.channel ≠ c) →
        (notes.foldl (record r) j).file c = j.file c) := by
  induction notes generalizing j with
  | nil => exact ⟨hj, fun c => ⟨.refl _ _, fun _ => rfl⟩⟩
  | cons note notes ih =>
    rw [List.forall_mem_cons] at hnames
    obtain ⟨hready, -, hreceives⟩ := record_receives hj hnames.1 r
    obtain ⟨hlast, hrest⟩ := ih hready hnames.2
    refine ⟨hlast, fun c => ⟨?_, fun hother => ?_⟩⟩
    · exact (hreceives.grows hj.ordered keeps_defaultKept c).trans (hrest c).1
    · rw [List.forall_mem_cons] at hother
      rw [List.foldl_cons, (hrest c).2 hother.2, hreceives]
      exact Channel.put_of_ne _ _ hother.1.symm

/-- What the files of a journal have gained accounts for the exchanges, and the services have
gained nothing. -/
structure Gains (site : Site) (exchanges : List Exchange) (before after : Channel → LogFile) :
    Prop where
  files : ∀ c, ∃ gained, Grows gained (before c) (after c) ∧
    List.Forall₂ (Accounts site c) gained (exchanges.filter (Exchange.isDue site c))
  services : after .service = before .service

theorem Gains.refl (site : Site) (file : Channel → LogFile) : Gains site [] file file :=
  ⟨fun _ => ⟨[], .refl _ _, .nil⟩, rfl⟩

theorem Gains.trans {first second : List Exchange} {before middle after : Channel → LogFile}
    (h : Gains site first before middle) (h' : Gains site second middle after) :
    Gains site (first ++ second) before after := by
  refine ⟨fun c => ?_, h'.services.trans h.services⟩
  obtain ⟨gained, hgrows, hgained⟩ := h.files c
  obtain ⟨more, hgrows', hmore⟩ := h'.files c
  refine ⟨gained ++ more, hgrows.trans hgrows', ?_⟩
  rw [List.filter_append]
  exact List.rel_append hgained hmore

/-- The lines that an exchange calls for. -/
theorem Noted.lines {x : Exchange} {notes : List Note} (h : Noted site x notes) (c : Channel) :
    List.Forall₂ (Accounts site c) (linesOf x.1 notes c) ([x].filter (Exchange.isDue site c)) := by
  cases h with
  | rendered note hnotes haudited hreported hreport hwritten hmeasures =>
    obtain ⟨entry, htells, hline⟩ := noteEvent_line hwritten x.1
    rw [hnotes]
    cases c <;> simp [linesOf, Exchange.isDue, haudited, hreported, hreport, Log.Report.channel,
      hline, Accounts, hmeasures entry htells]
  | unsent audit note hnotes haudited hreported haudit hwritten hmeasures hreport hnote =>
    obtain ⟨entry, htells, hline⟩ := noteEvent_line hwritten x.1
    obtain ⟨other, hother, hlast⟩ := noteEvent_line hnote x.1
    have hnames : Names other x := ⟨hother.method, hother.path⟩
    have haudit' : audit.report.channel = .audit := congrArg Log.Report.channel haudit
    rw [hnotes]
    cases c <;> simp [linesOf, Exchange.isDue, haudited, hreported, haudit', hreport, hline, hlast,
      Accounts, hmeasures entry htells, hnames]
  | failed note hnotes haudited hreported hreport hwritten =>
    obtain ⟨entry, htells, hline⟩ := noteEvent_line hwritten x.1
    have hnames : Names entry x := ⟨htells.method, htells.path⟩
    rw [hnotes]
    cases c <;> simp [linesOf, Exchange.isDue, haudited, hreported, hreport, hline, Accounts,
      hnames]
  | speechless note hnotes haudited hreported hreport hnames hlost =>
    rw [hnotes]
    cases c <;> simp [linesOf, Exchange.isDue, haudited, hreported, hreport, hlost]
  | silent hnotes haudited hreported =>
    rw [hnotes]
    cases c <;> simp [linesOf, Exchange.isDue, haudited, hreported]

/-- No note is about the service itself, and none has extras of its own names. -/
theorem Noted.channels {x : Exchange} {notes : List Note} (h : Noted site x notes) :
    (∀ note ∈ notes, ∀ e ∈ note.extras, e.1 ∈ noteNames) ∧
    ∀ note ∈ notes, note.report.channel ≠ .service := by
  cases h with
  | rendered note hnotes _ _ hreport hwritten =>
    have hchannel : note.report.channel = .audit := congrArg Log.Report.channel hreport
    rw [hnotes]
    simp only [List.forall_mem_singleton, hchannel]
    exact ⟨hwritten.names, nofun⟩
  | unsent audit note hnotes _ _ haudit hwritten _ hreport hnote =>
    have hchannel : audit.report.channel = .audit := congrArg Log.Report.channel haudit
    rw [hnotes]
    simp only [List.forall_mem_cons, List.not_mem_nil, hchannel, hreport]
    exact ⟨⟨hwritten.names, hnote.names, nofun⟩, nofun, nofun, nofun⟩
  | failed note hnotes _ _ hreport hwritten =>
    rw [hnotes]
    simp only [List.forall_mem_singleton, hreport]
    exact ⟨hwritten.names, nofun⟩
  | speechless note hnotes _ _ hreport hnames =>
    rw [hnotes]
    simp only [List.forall_mem_singleton, hreport]
    exact ⟨hnames, nofun⟩
  | silent hnotes =>
    rw [hnotes]
    exact ⟨nofun, nofun⟩

/-- Recording the notes that an exchange calls for. -/
theorem record_gains {j : Journal} (hj : j.Ready false Journal.defaultKept) {x : Exchange}
    {notes : List Note} (hnoted : Noted site x notes) :
    (notes.foldl (record x.1) j).Ready false Journal.defaultKept ∧
      Gains site [x] j.file (notes.foldl (record x.1) j).file := by
  obtain ⟨hnames, hservices⟩ := Noted.channels hnoted
  obtain ⟨hready, hgrows⟩ := record_grows hj hnames x.1
  exact ⟨hready, fun c => ⟨_, (hgrows c).1, Noted.lines hnoted c⟩, (hgrows .service).2 hservices⟩

/-- A request is answered by the site, and its notes are recorded. -/
theorem handle_eq (s : Service) (r : Request) :
    s.handle r = (⟨s.toSite, (s.answer r).notes.foldl (record r) s.journal⟩,
      (s.answer r).response) := rfl

/-- Neither a request nor days that pass change the site. -/
theorem site_handle_wait (s : Service) (days : Nat) (r : Request) :
    ((s.wait days).handle r).1.toSite = s.toSite := by
  rw [handle_eq, wait]

theorem handle_gains (hs : s.Ready) {r : Request}
    (hbody : ∀ v, r.json? s.platform.levels = some v → v.Unbroken)
    (hsized : Exchange.Sized s.toSite (r, (s.handle r).2)) :
    (s.handle r).1.Ready ∧
      Gains s.toSite [(r, (s.handle r).2)] s.journal.file (s.handle r).1.journal.file := by
  rw [handle_eq] at hsized ⊢
  dsimp only at hsized ⊢
  have hnoted : Noted s.toSite (r, (s.answer r).response) (s.answer r).notes :=
    answer_noted hbody hsized
  generalize s.answer r = a at hnoted ⊢
  obtain ⟨hready, hgains⟩ := record_gains hs.journal hnoted
  exact ⟨⟨hready⟩, hgains⟩

theorem handleAll_gains (hs : s.Ready) {arrivals : List Arrival}
    (hbodies : ∀ a ∈ arrivals, ∀ v, a.request.json? s.platform.levels = some v → v.Unbroken)
    (hsized : ∀ x ∈ (arrivals.map (·.request)).zip (s.handleAll arrivals).2,
      Exchange.Sized s.toSite x) :
    Gains s.toSite ((arrivals.map (·.request)).zip (s.handleAll arrivals).2) s.journal.file
      (s.handleAll arrivals).1.journal.file := by
  induction arrivals generalizing s with
  | nil => exact .refl s.toSite _
  | cons a rest ih =>
    rw [List.forall_mem_cons] at hbodies
    have hwait : (s.wait a.days).Ready := ⟨hs.journal.wait a.days⟩
    have hsite := s.site_handle_wait a.days a.request
    have hfirst := handle_gains (r := a.request) hwait hbodies.1
    simp only [handleAll, List.map_cons, List.zip_cons_cons] at hsized ⊢
    rw [List.forall_mem_cons] at hsized
    generalize (s.wait a.days).handle a.request = handled at hsite hfirst hsized ⊢
    obtain ⟨hready, hgains⟩ := hfirst hsized.1
    rw [← hsite] at hbodies hsized
    exact hgains.trans (hsite ▸ ih hready hbodies.2 hsized.2)

theorem start_ready {p : Platform} {config : Config} {data : Storage.Tree} {journal : Journal}
    (hjournal : journal.Fresh) (h : start p config data journal = .ok s) :
    s.Ready ∧ ∀ c, s.journal.file c = (journal.file c).opened journal.today := by
  unfold start at h
  split at h
  · cases h
  · cases h
    exact ⟨⟨Journal.setUp_ready hjournal.ordered _ _⟩, fun _ => rfl⟩

/-- A service with the engine of this library, on a data directory of an owner. -/
def fresh (data : Storage.Tree) : Service where
  platform := .ofLevels 64
  config := {}
  data := (Storage.setUp (some Template.packagedTree) data).1
  journal := Journal.setUp {} false Journal.defaultKept

theorem start_fresh {data : Storage.Tree}
    (h : (Storage.setUp (some Template.packagedTree) data).2 = .ok ()) :
    start (.ofLevels 64) {} data {} = .ok (fresh data) := by
  unfold start
  split
  · rename_i herror
    rw [herror] at h
    cases h
  · rename_i after hok
    rw [fresh, hok]

/-- A script without steps. -/
def emptyScript : Request where
  method := "POST"
  target := "/api/render"
  contentType := "application/json"
  body := "\x7b\"operations\": []\x7d"

/-- A template that spells half of a character, and nothing else. -/
def halfTemplate : Storage.Tree :=
  ⟨[(Storage.templatesDir, .directory), (Storage.templatesDir ++ ["x.zpl.j2"],
    .file "\x7b\x7b \"\\ud800\" \x7d\x7d")]⟩

end Service

end ThermalLabel.Http
