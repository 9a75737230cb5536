import ThermalLabel.Proofs.Http.Defaults

/-!
# Values in place of objects

A script, its settings and the context of a template are objects.  Whatever else is given as a
script is refused.  In place of settings or of a context it is refused if it counts as true; one
that counts as false stands for an object without fields, and so does a body that is not JSON.
-/
namespace ThermalLabel

/-- Something is given, and it is no object. -/
def Value.NonObject : Value → Prop
  | .null | .object _ => False
  | _ => True

namespace Script

variable {v : Value} {fields : Fields} {defaults : Config}

theorem run_of_nonObject (h : v.NonObject) (defaults : Config) :
    run v defaults = .error (.error .notObject) := by
  cases v with
  | null | object fields => exact h.elim
  | _ => rfl

theorem readConfig_of_nonObject (h : v.NonObject) (htrue : v.truthy = true) (defaults : Config) :
    readConfig v defaults = .error (.error .configNotObject) := by
  unfold readConfig
  rw [htrue]
  cases v with
  | null | object fields => exact h.elim
  | _ => rfl

theorem readConfig_of_not_truthy (hfalse : v.truthy = false) (defaults : Config) :
    readConfig v defaults = readConfig .null defaults := by
  unfold readConfig
  rw [hfalse]
  rfl

/-- Settings that are no object and count as true have the script refused. -/
theorem run_of_nonObject_config (h : v.NonObject) (htrue : v.truthy = true)
    (hconfig : fields.get? "config" = some v) (defaults : Config) :
    ∃ e, run (.object fields) defaults = .error (.error e) := by
  cases hsteps : steps? (.object fields) with
  | none => exact run_of_steps?_eq_none hsteps defaults
  | some steps =>
    rw [run_of_steps?_eq_some hsteps, settingsBlock, hconfig, Option.getD_some,
      readConfig_of_nonObject h htrue]
    exact ⟨_, rfl⟩

/-- Settings that count as false are as good as none. -/
theorem run_of_config_not_truthy (hfalse : v.truthy = false)
    (hconfig : fields.get? "config" = some v) (defaults : Config) :
    run (.object fields) defaults = run (.object (fields.set "config" .null)) defaults := by
  have hne : Text.ofString "operations" ≠ Text.ofString "config" := by decide
  simp only [run, Fields.get?_set_of_ne _ _ hne, Fields.get?_set_self, hconfig, Option.getD_some,
    readConfig_of_not_truthy hfalse]

end Script

namespace Http

variable {p : Platform} {config : Config} {data : Storage.Tree} {r : Request} {v : Value}
  {name : String}

/-- A value is posted to a route of a platform. -/
structure Request.Posts (r : Request) (p : Platform) (route : Route) (body : Value) : Prop where
  route : resolve r.path r.verb = .route route
  verb : r.verb = "POST"
  body : r.json? p.levels = some body

namespace Answer

/-- No note of the answer is one for audit. -/
def Unaudited (a : Answer) : Prop :=
  ∀ note ∈ a.notes, note.report.channel ≠ .audit

/-- The answer tells the error, with no document and nothing for audit. -/
structure Refused (a : Answer) (error : Text) : Prop where
  status : a.response.status = 400
  content : a.response.content = (Response.refusal 400 error).content
  unaudited : a.Unaudited

theorem Refused.shared {a : Answer} {error : Text} (h : a.Refused error) : a.shared.Refused error :=
  ⟨h.status, h.content, h.unaudited⟩

end Answer

/-- A note that is not for audit leaves the audit file as it is. -/
theorem file_record (r : Request) (j : Log.Journal) {note : Note}
    (h : note.report.channel ≠ .audit) : (Service.record r j note).file .audit = j.file .audit :=
  j.perform_report_file_of_ne h (.text note.message) (Service.noteFields note r) note.cause

theorem Answer.Unaudited.file_handle {s : Service} (h : (s.answer r).Unaudited) :
    (s.handle r).1.journal.file .audit = s.journal.file .audit := by
  rw [Service.handle_eq]
  dsimp only
  generalize s.answer r = a at h ⊢
  refine List.foldlRecOn (motive := fun next : Log.Journal =>
    next.file .audit = s.journal.file .audit) a.notes (Service.record r) rfl ?_
  intro next hnext note hnote
  rw [file_record r next (h note hnote), hnext]

theorem answer_of_posts_render (h : r.Posts p .render v) (config : Config)
    (data : Storage.Tree) :
    answer p config data r = (answerRender config v).shared := by
  rw [answer_of_get_or_post h.route (.inr h.verb) rfl, answerRoute, withBody, h.body]

theorem answer_of_posts_template (h : r.Posts p (.template name) v) (config : Config)
    (data : Storage.Tree) :
    answer p config data r = (answerTemplate p config data name v).shared := by
  rw [answer_of_get_or_post h.route (.inr h.verb) rfl, answerRoute, withBody, h.body]

theorem answerRender_refused {e : Script.Error} (h : Script.run v config = .error (.error e)) :
    (answerRender config v).Refused e.message := by
  rw [answerRender, h]
  exact ⟨rfl, rfl, by simp [Answer.Unaudited, Log.Report.channel]⟩

/-! ### Contexts -/

theorem contextOf?_of_nonObject (h : v.NonObject) (htrue : v.truthy = true) :
    contextOf? v = none := by
  cases v with
  | null | object fields => exact h.elim
  | _ => exact if_pos htrue

theorem contextOf?_of_not_truthy (hfalse : v.truthy = false) : contextOf? v = some [] := by
  cases v with
  | object fields =>
    rw [Value.truthy, Bool.not_eq_false', List.isEmpty_iff] at hfalse
    rw [hfalse, contextOf?]
  | null => rfl
  | _ => exact if_neg (ne_true_of_eq_false hfalse)

/-- What counts as false is as good as an object without fields. -/
theorem answerTemplate_of_not_truthy (hfalse : v.truthy = false) :
    answerTemplate p config data name v = answerTemplate p config data name (.object []) := by
  rw [answerTemplate, answerTemplate, contextOf?_of_not_truthy hfalse]
  rfl

theorem answerTemplate_of_nonObject (h : v.NonObject) (htrue : v.truthy = true) :
    (answerTemplate p config data name v).Refused "Contexto deve ser um objeto" := by
  rw [answerTemplate, contextOf?_of_nonObject h htrue]
  exact ⟨rfl, rfl, by simp [Answer.Unaudited, Answer.silent]⟩

/-- An object is never refused for what it is. -/
theorem answerTemplate_object_status (fields : Fields) :
    (answerTemplate p config data name (.object fields)).response.status ≠ 400 := by
  rw [answerTemplate, contextOf?]
  dsimp only
  split
  · exact (by decide : (404 : Nat) ≠ 400)
  · exact (by decide : (500 : Nat) ≠ 400)
  · exact document_status_ne _ _

/-- What is posted and counts as false stands for an object without fields. -/
theorem answer_of_posts_not_truthy (h : r.Posts p (.template name) v) (hfalse : v.truthy = false)
    (config : Config) (data : Storage.Tree) :
    (answer p config data r).response.status ≠ 400 ∧
      answer p config data r = (answerTemplate p config data name (.object [])).shared := by
  rw [answer_of_posts_template h, answerTemplate_of_not_truthy hfalse]
  refine ⟨?_, rfl⟩
  rw [Answer.shared_status]
  exact answerTemplate_object_status []

/-! ### Bodies -/

/-- A body that calls itself JSON fails to be read for this reason. -/
structure Request.Unreadable (r : Request) (p : Platform) (e : Json.ReadError) : Prop where
  type : isJsonType r.contentType = true
  body : readBody p.levels r.body = .error e

theorem Request.Unreadable.json?_of_malformed (h : r.Unreadable p .malformed) :
    r.json? p.levels = some .null := by
  rw [Request.json?, if_pos h.type, h.body]

theorem Request.Unreadable.json?_of_tooDeep (h : r.Unreadable p .tooDeep) :
    r.json? p.levels = none := by
  rw [Request.json?, if_pos h.type, h.body]

/-- A body that is nested too deeply has the service fail. -/
theorem answer_of_tooDeep (hroute : resolve r.path r.verb = .route (.template name))
    (hpost : r.verb = "POST") (h : r.Unreadable p .tooDeep) (config : Config)
    (data : Storage.Tree) :
    (answer p config data r).response.status = 500 ∧ (answer p config data r).Unaudited := by
  rw [answer_of_get_or_post hroute (.inr hpost) rfl, answerRoute, withBody, h.json?_of_tooDeep]
  exact ⟨rfl, by simp [Answer.Unaudited, Answer.shared, Answer.crashed, Log.Report.channel]⟩

/-- Where an object is required, something else that is given is refused if it counts as true, and
as a script in any case; no document is sent then, and the audit file stays as it is.  What counts
as false stands for an object without fields in place of settings or of a context, and so does a
body that is no JSON; a body that is nested too deeply fails. -/
theorem nonObject_refused (hv : v.NonObject) (p : Platform) (config : Config)
    (data : Storage.Tree) :
    (Script.run v config = .error (.error .notObject) ∧
      ∀ r, r.Posts p .render v → (answer p config data r).Refused Script.Error.notObject.message) ∧
    (∀ fields : Fields, fields.get? "config" = some v →
      (v.truthy = true → ∃ e, Script.run (.object fields) config = .error (.error e) ∧
        ∀ r, r.Posts p .render (.object fields) → (answer p config data r).Refused e.message) ∧
      (v.truthy = false → Script.run (.object fields) config =
        Script.run (.object (fields.set "config" .null)) config)) ∧
    (∀ r name, r.Posts p (.template name) v →
      (v.truthy = true → (answer p config data r).Refused "Contexto deve ser um objeto") ∧
      (v.truthy = false → (answer p config data r).response.status ≠ 400 ∧
        answer p config data r = (answerTemplate p config data name (.object [])).shared)) ∧
    (∀ r name, resolve r.path r.verb = .route (.template name) → r.verb = "POST" →
      (r.Unreadable p .malformed → (answer p config data r).response.status ≠ 400 ∧
        answer p config data r = (answerTemplate p config data name (.object [])).shared) ∧
      (r.Unreadable p .tooDeep →
        (answer p config data r).response.status = 500 ∧ (answer p config data r).Unaudited)) ∧
    ∀ journal r, (answer p config data r).Unaudited →
      (Service.handle ⟨⟨p, config, data⟩, journal⟩ r).1.journal.file .audit =
        journal.file .audit := by
  have hrefused {script : Value} {e : Script.Error}
      (hrun : Script.run script config = .error (.error e)) (r : Request)
      (hposts : r.Posts p .render script) : (answer p config data r).Refused e.message := by
    rw [answer_of_posts_render hposts]
    exact (answerRender_refused hrun).shared
  refine ⟨?_, ?_, ?_, ?_, ?_⟩
  · have hrun := Script.run_of_nonObject hv config
    exact ⟨hrun, hrefused hrun⟩
  · intro fields hconfig
    constructor
    · intro htrue
      obtain ⟨e, hrun⟩ := Script.run_of_nonObject_config hv htrue hconfig config
      exact ⟨e, hrun, hrefused hrun⟩
    · intro hfalse
      exact Script.run_of_config_not_truthy hfalse hconfig config
  · intro r name hposts
    constructor
    · intro htrue
      rw [answer_of_posts_template hposts]
      exact (answerTemplate_of_nonObject hv htrue).shared
    · intro hfalse
      exact answer_of_posts_not_truthy hposts hfalse config data
  · intro r name hroute hpost
    constructor
    · intro h
      exact answer_of_posts_not_truthy ⟨hroute, hpost, h.json?_of_malformed⟩ rfl config data
    · intro h
      exact answer_of_tooDeep hroute hpost h config data
  · intro journal r h
    exact Answer.Unaudited.file_handle h

/-- A list in place of a script, of settings and of a context. -/
def listPost : Request where
  method := "POST"
  target := "/api/templates/sample_default"
  contentType := "application/json"
  body := "[1]"

theorem nonObject_refused_list : Value.NonObject (.list [.integer 1]) ∧
    (answer (.ofLevels 64) {} {} listPost).Refused "Contexto deve ser um objeto" ∧
    Script.run (.list [.integer 1]) {} = .error (.error .notObject) ∧
    ∃ e, Script.run (.object [("config", .list [.integer 1]), ("operations", .list [])]) {} =
      .error (.error e) := by
  have hlist : Value.NonObject (.list [.integer 1]) := trivial
  have hposts : listPost.Posts (.ofLevels 64) (.template "sample_default") (.list [.integer 1]) :=
    ⟨by decide +kernel, by decide +kernel, by rfl⟩
  obtain ⟨⟨hrun, -⟩, hconfig, hcontext, -, -⟩ := nonObject_refused hlist (.ofLevels 64) {} {}
  obtain ⟨e, he, -⟩ :=
    (hconfig [("config", .list [.integer 1]), ("operations", .list [])] rfl).1 rfl
  exact ⟨hlist, (hcontext _ _ hposts).1 rfl, hrun, e, he⟩

/-- A template without instructions. -/
def plainTree : Storage.Tree :=
  ⟨[(["zpl_templates"], .directory), (["zpl_templates", "sample_default.zpl.j2"], .file "^XA^XZ")]⟩

/-- An empty list in place of a context. -/
def emptyPost : Request :=
  { listPost with body := "[]" }

/-- A body that breaks off. -/
def brokenPost : Request :=
  { listPost with body := "[" }

/-- An empty list in place of settings and of a context, and a body that is no JSON, give
documents, which are noted for audit. -/
theorem nonObject_accepted :
    Value.NonObject (.list []) ∧
    (∃ result, Script.run (.object [("config", .list []), ("operations", .list [])]) {} =
      .ok result) ∧
    emptyPost.Posts (.ofLevels 64) (.template "sample_default") (.list []) ∧
    (answer (.ofLevels 64) {} plainTree emptyPost).response.status = 200 ∧
    (answer (.ofLevels 64) {} plainTree emptyPost).notes.any (·.report == .audit) = true ∧
    resolve brokenPost.path brokenPost.verb = .route (.template "sample_default") ∧
    brokenPost.Unreadable (.ofLevels 64) .malformed ∧
    (answer (.ofLevels 64) {} plainTree brokenPost).response.status = 200 ∧
    (answer (.ofLevels 64) {} plainTree brokenPost).notes.any (·.report == .audit) = true := by
  have hroute : resolve emptyPost.path emptyPost.verb = .route (.template "sample_default") := by
    decide +kernel
  refine ⟨trivial, ⟨_, rfl⟩, ⟨hroute, by decide +kernel, by rfl⟩, ?_, ?_, hroute,
    ⟨by decide +kernel, by rfl⟩, ?_, ?_⟩ <;> decide +kernel

end Http

end ThermalLabel
