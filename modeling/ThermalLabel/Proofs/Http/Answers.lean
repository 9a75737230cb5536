import ThermalLabel.Proofs.Http.Notes
import ThermalLabel.Proofs.Script.Answers
import ThermalLabel.Proofs.Template.Unbroken

/-!
# Answers and their notes

A document that is made is noted as an audit, a refused script and every failure as an error, and
nothing else is noted.  The document of a script is sent once it has been noted, for the positions
next to it can be written.  That of a template may have no form in octets, and then the failure to
send it is noted behind it.  What an engine says of a failure may have none either.
-/
namespace ThermalLabel.Http

open Text (Unbroken)

/-- The document in the content of a response, which stands under its name in JSON. -/
def Content.document? : Content → Option Text
  | .text s => some (Text.ofString s)
  | .json (.object fields) => match Fields.get? fields "zpl" with
    | some (.text s) => some s
    | _ => none
  | _ => none

/-- A length fits the word for sizes, as that of anything in memory does. -/
def FitsMemory (n : Nat) : Prop :=
  Word.size.holds n = true

instance (n : Nat) : Decidable (FitsMemory n) :=
  inferInstanceAs (Decidable (_ = true))

theorem writable_of_fitsMemory {n : Nat} (h : FitsMemory n) : Number.writable n = true := by
  have hbound : (n : Int) < Word.size.bound := (of_decide_eq_true h).2
  have hlt : n < 10 ^ 19 := by
    have hword : Word.size.bound = 9223372036854775808 := rfl
    omega
  have hcount : Number.digitCount n ≤ 19 := (Number.digitCount_le_iff (by decide)).mpr hlt
  have hmax : Number.digitCount n ≤ Number.maxDigits := Nat.le_trans hcount (by decide)
  simpa [Number.writable] using hmax

namespace Answer

/-- Nothing is noted, for nothing has failed. -/
def Silent (a : Answer) : Prop :=
  a.notes = [] ∧ a.response.status ≠ 500

/-- An error is noted, and the response has the status. -/
def Reports (status : Nat) (a : Answer) : Prop :=
  a.response.status = status ∧
    ∃ note, a.notes = [note] ∧ note.report.channel = .error ∧ note.Written

/-- A failure is noted, but not so that the note could be written. -/
def Speechless (a : Answer) : Prop :=
  a.response.status = 500 ∧ ∃ note, a.notes = [note] ∧ note.report.channel = .error ∧
    (∀ e ∈ note.extras, e.1 ∈ noteNames) ∧ ∀ r, (Service.noteEvent note r).line? = none

/-- A note that gives the length of a document. -/
structure Audits (d : Text) (note : Note) : Prop where
  report : note.report = .audit
  written : note.Written
  length : Fields.get? note.extras.reverse "length" = some (.integer d.length)

/-- A document is accounted for, and so is the failure to send it. -/
def Unsent (d : Text) (a : Answer) : Prop :=
  a.response.status = 500 ∧ ∃ audit note, a.notes = [audit, note] ∧ Audits d audit ∧
    note.report.channel = .error ∧ note.Written

/-- A document is returned, and the note gives its length. -/
def Rendered (a : Answer) (more : Fields → Prop) : Prop :=
  a.response.status = 200 ∧ ∃ note d, a.notes = [note] ∧ Audits d note ∧
    a.response.content.document? = some d ∧ more note.extras.reverse

theorem Silent.of_status {a : Answer} (status : Nat) (hnotes : a.notes = [])
    (hstatus : a.response.status = status) (hne : status ≠ 500) : a.Silent :=
  ⟨hnotes, hstatus ▸ hne⟩

theorem crashed_reports {cause : Text} (h : Unbroken cause) : (crashed cause []).Reports 500 := by
  refine ⟨rfl, _, rfl, rfl, Text.unbroken_ofString _, nofun, ?_⟩
  rintro _ ⟨⟩
  exact h

theorem failed_reports {error said trace message : Text} {extras : Fields}
    (hmessage : Unbroken message) (hextras : ∀ e ∈ extras, e.1 ∈ noteNames ∧ e.2.Encodable)
    (hsaid : Unbroken said) (htrace : Unbroken trace) :
    (failed error said trace message extras).Reports 500 := by
  refine ⟨rfl, _, rfl, rfl, hmessage, ?_, ?_⟩
  · exact List.forall_mem_append.mpr ⟨hextras, List.forall_mem_singleton.mpr
      ⟨mem_noteNames.2.2.2, .text hsaid⟩⟩
  · rintro _ ⟨⟩
    exact htrace

theorem failed_speechless {error said trace message : Text} {extras : Fields}
    (hextras : ∀ e ∈ extras, e.1 ∈ noteNames) (hbroken : ¬ (Unbroken said ∧ Unbroken trace)) :
    (failed error said trace message extras).Speechless := by
  have hnames : ∀ e ∈ extras ++ [(Text.ofString "erro", Value.text said)], e.1 ∈ noteNames :=
    List.forall_mem_append.mpr ⟨hextras, List.forall_mem_singleton.mpr mem_noteNames.2.2.2⟩
  refine ⟨rfl, _, rfl, rfl, hnames, Service.noteEvent_lost hnames ?_ rfl hbroken⟩
  rw [List.reverse_append]
  rfl

theorem expected_noted (error : Text) (f : Fault) :
    (expected error f).Silent ∨ (expected error f).Reports 500 := by
  unfold expected
  split
  · exact .inl (.of_status 400 rfl rfl (by decide))
  · exact .inr (crashed_reports f.message_unbroken)

theorem json_noted (v : Value) : (json v []).Silent ∨ (json v []).Reports 500 := by
  unfold json
  split
  · exact .inl (.of_status 200 rfl rfl (by decide))
  · exact .inr (crashed_reports (Fault.message_unbroken _))

theorem document_noted (s : Text) : (document s []).Silent ∨ (document s []).Reports 500 := by
  unfold document
  split
  · exact .inl (.of_status 200 rfl rfl (by decide))
  · exact .inr (crashed_reports (Text.unbroken_ofString _))

/-- What is sent arrives, or the service fails. -/
theorem json_status (v : Value) (notes : List Note) :
    (json v notes).response.status = 200 ∨ (json v notes).response.status = 500 := by
  unfold json
  split
  · exact .inl rfl
  · exact .inr rfl

theorem document_status (s : Text) (notes : List Note) :
    (document s notes).response.status = 200 ∨ (document s notes).response.status = 500 := by
  unfold document
  split
  · exact .inl rfl
  · exact .inr rfl

end Answer

/-! ### Queries -/

theorem answerSample_noted (config : Config) (r : Request) :
    (answerSample config r).Silent ∨ (answerSample config r).Reports 500 := by
  unfold answerSample
  dsimp only
  split
  · exact Answer.document_noted _
  · exact .inr (Answer.crashed_reports (Fault.message_unbroken _))

theorem answerDots_noted (config : Config) (r : Request) :
    (answerDots config r).Silent ∨ (answerDots config r).Reports 500 := by
  unfold answerDots
  dsimp only
  split
  · exact Answer.expected_noted _ _
  · split
    · exact .inl (.of_status 400 rfl rfl (by decide))
    · split
      · exact Answer.expected_noted _ _
      · exact Answer.json_noted _

/-- Questions are not noted unless they fail. -/
theorem answerRoute_noted {route : Route} (hroute : route.isQuery = true) (p : Platform)
    (config : Config) (data : Storage.Tree) (r : Request) :
    (answerRoute p config data r route).Silent ∨
      (answerRoute p config data r route).Reports 500 := by
  cases route with
  | sample => exact answerSample_noted config r
  | dots => exact answerDots_noted config r
  | operations | templates => exact .inl (.of_status 200 rfl rfl (by decide))
  | asset => exact .inl (.of_status 404 rfl rfl (by decide))
  | render | template => cases hroute

/-! ### Bodies -/

theorem short_of_json? {r : Request} {levels : Nat} {v : Value} (h : r.json? levels = some v) :
    v.Short := by
  unfold Request.json? at h
  split at h
  · split at h
    · rename_i v' hread
      cases h
      unfold readBody at hread
      split at hread
      · exact Json.short_of_read hread
      · cases hread
    · cases h
      nofun
    · cases h
  · cases h
    nofun

theorem withBody_eq {p : Platform} {r : Request} {answer : Value → Answer} :
    (∃ v, r.json? p.levels = some v ∧ withBody p r answer = answer v) ∨
    (r.json? p.levels = none ∧ (withBody p r answer).Reports 500) := by
  unfold withBody
  split
  · rename_i v hv
    exact .inl ⟨v, hv, rfl⟩
  · rename_i hnone
    exact .inr ⟨hnone, Answer.crashed_reports (Text.unbroken_ofString _)⟩

/-! ### Labels -/

theorem stepsOf_of_steps? {script : Value} {steps : List Value}
    (h : Script.steps? script = some steps) : stepsOf script = steps := by
  unfold Script.steps? at h
  split at h
  · split at h
    · rename_i found hget
      cases h
      simp only [stepsOf, hget]
    · cases h
  · cases h

/-- A script is answered with its document, and refused or failed with an error. -/
theorem answerRender_noted (config : Config) {script : Value} (hunbroken : script.Unbroken)
    (hshort : script.Short)
    (hsteps : ∀ steps, Script.steps? script = some steps → FitsMemory steps.length)
    (hdocument : ∀ d, (answerRender config script).response.content.document? = some d →
      FitsMemory d.length) :
    (answerRender config script).Rendered (fun extras => ∃ steps,
      Script.steps? script = some steps ∧
      extras.get? "operations" = some (.integer steps.length)) ∨
    (answerRender config script).Reports 400 ∨ (answerRender config script).Reports 500 := by
  cases hrun : Script.run script config with
  | error failure =>
    right
    cases failure with
    | fault f =>
      right
      simp only [answerRender, hrun]
      exact Answer.failed_reports (Text.unbroken_ofString _) nofun f.message_unbroken
        f.message_unbroken
    | error e =>
      left
      have hmessage := Script.run_worded hunbroken config e hrun
      simp only [answerRender, hrun]
      refine ⟨rfl, _, rfl, rfl, .of_extras (Text.unbroken_ofString _) ?_ rfl⟩
      exact List.forall_mem_singleton.mpr ⟨mem_noteNames.2.2.2, .text hmessage⟩
  | ok result =>
    left
    obtain ⟨steps, hfound, hys⟩ := Script.run_of_ok hshort hrun
    have hwritable : Json.writable (.object [(Text.ofString "success", .flag true),
        (Text.ofString "zpl", .text result.document),
        (Text.ofString "ending_y", .list result.endingYs)]) = true := by
      simp only [Json.writable, Json.writableFields, Json.writableItems_iff, Bool.true_and,
        Bool.and_true]
      exact fun y hy => Json.writable_of_short y (hys y hy)
    simp only [answerRender, hrun, Answer.json, hwritable, if_true, stepsOf_of_steps? hfound]
      at hdocument ⊢
    have hlength := writable_of_fitsMemory (hdocument result.document rfl)
    have hcount := writable_of_fitsMemory (hsteps steps hfound)
    refine ⟨rfl, _, result.document, rfl, ⟨rfl, .of_extras (Text.unbroken_ofString _) ?_ rfl, rfl⟩,
      rfl, steps, hfound, rfl⟩
    exact List.forall_mem_cons.mpr ⟨⟨mem_noteNames.1, .integer hcount⟩,
      List.forall_mem_singleton.mpr ⟨mem_noteNames.2.1, .integer hlength⟩⟩

/-- What the engine makes of a request for a template. -/
def renderingOf? (p : Platform) (config : Config) (data : Storage.Tree) (name : String)
    (body : Value) : Option (Except Template.RenderError Text) :=
  (contextOf? body).map fun context =>
    p.render data Storage.templatesDir (templateFile name) config context

/-- A document without a form in octets. -/
def unsent? : Option (Except Template.RenderError Text) → Option Text
  | some (.ok d) => if d.toString?.isSome then none else some d
  | _ => none

/-- A failure that is told in a text without a form in octets. -/
def isSpeechless : Option (Except Template.RenderError Text) → Bool
  | some (.error e) => !(e.message.toString?.isSome && e.trace.toString?.isSome)
  | _ => false

theorem isSpeechless_iff {e : Template.RenderError} :
    isSpeechless (some (.error e)) = true ↔ ¬ (Unbroken e.message ∧ Unbroken e.trace) := by
  rw [isSpeechless, Bool.not_eq_true', Bool.eq_false_iff, Ne, Bool.and_eq_true,
    Text.isSome_toString?_iff, Text.isSome_toString?_iff]

theorem unsent?_of_unbroken {d : Text} (h : Unbroken d) : unsent? (some (.ok d)) = none :=
  if_pos (Text.isSome_toString?_iff.mpr h)

theorem unsent?_of_broken {d : Text} (h : ¬ Unbroken d) : unsent? (some (.ok d)) = some d :=
  if_neg (mt Text.isSome_toString?_iff.mp h)

/-- A template is answered with its document, fails, or is not found. -/
inductive TemplateNoted (rendering : Option (Except Template.RenderError Text)) (a : Answer) : Prop
  | rendered (h : a.Rendered fun _ => True) (hsent : unsent? rendering = none)
      (hspoken : isSpeechless rendering = false)
  | refused (hnotes : a.notes = []) (h : a.response.status = 400 ∨ a.response.status = 404)
      (hsent : unsent? rendering = none) (hspoken : isSpeechless rendering = false)
  | failed (h : a.Reports 500) (hsent : unsent? rendering = none)
      (hspoken : isSpeechless rendering = false)
  | unsent (d : Text) (h : a.Unsent d) (hunsent : unsent? rendering = some d)
      (hcontent : a.response.content.document? = none) (hspoken : isSpeechless rendering = false)
  | speechless (h : a.Speechless) (hsent : unsent? rendering = none)
      (hspeechless : isSpeechless rendering = true)

/-- The note that a template leaves when its document is made. -/
theorem audits_template {name : String} {d : Text} (hlength : FitsMemory d.length) :
    Answer.Audits d
      { report := .audit, message := "render_template"
        extras := [("template", .text (Text.ofString (templateFile name))),
          ("length", .integer d.length)] } where
  report := rfl
  written := by
    refine .of_extras (Text.unbroken_ofString _) ?_ rfl
    exact List.forall_mem_cons.mpr ⟨⟨mem_noteNames.2.2.1, .text (Text.unbroken_ofString _)⟩,
      List.forall_mem_singleton.mpr
        ⟨mem_noteNames.2.1, .integer (writable_of_fitsMemory hlength)⟩⟩
  length := rfl

theorem answerTemplate_noted (p : Platform) (config : Config) (data : Storage.Tree) (name : String)
    (body : Value)
    (hdocument : ∀ d, ((answerTemplate p config data name body).response.content.document?.or
      (unsent? (renderingOf? p config data name body))) = some d → FitsMemory d.length) :
    TemplateNoted (renderingOf? p config data name body)
      (answerTemplate p config data name body) := by
  cases hcontext : contextOf? body with
  | none =>
    simp only [answerTemplate, renderingOf?, hcontext, Option.map_none]
    exact .refused rfl (.inl rfl) rfl rfl
  | some context =>
    simp only [answerTemplate, renderingOf?, hcontext, Option.map_some] at hdocument ⊢
    generalize p.render data Storage.templatesDir (templateFile name) config context = result
      at hdocument ⊢
    cases result with
    | error e =>
      have hfile : ∀ f ∈ [(Text.ofString "template", Value.text (Text.ofString
          (templateFile name)))], f.1 ∈ noteNames ∧ f.2.Encodable :=
        List.forall_mem_singleton.mpr ⟨mem_noteNames.2.2.1, .text (Text.unbroken_ofString _)⟩
      by_cases htold : Unbroken e.message ∧ Unbroken e.trace
      · have hspoken : isSpeechless (some (.error e)) = false :=
          Bool.eq_false_iff.mpr fun h => isSpeechless_iff.mp h htold
        cases e with
        | notFound => exact .refused rfl (.inr rfl) rfl hspoken
        | fault | raised =>
          exact .failed (Answer.failed_reports (Text.unbroken_ofString _) hfile htold.1 htold.2) rfl
            hspoken
      · have hspeechless : isSpeechless (some (.error e)) = true := isSpeechless_iff.mpr htold
        cases e with
        | notFound => exact absurd ⟨Text.unbroken_nil, Text.unbroken_nil⟩ htold
        | fault | raised =>
          exact .speechless (Answer.failed_speechless (fun f hf => (hfile f hf).1) htold) rfl
            hspeechless
    | ok d =>
      by_cases hd : Unbroken d
      · have hsent := unsent?_of_unbroken hd
        obtain ⟨content, hcontent⟩ := Text.exists_toString? hd
        simp only [Answer.document, hcontent] at hdocument ⊢
        obtain rfl := Text.toString?_eq_some_iff.mp hcontent
        exact .rendered ⟨rfl, _, _, rfl, audits_template (hdocument _ rfl), rfl, trivial⟩ hsent rfl
      · have hunsent := unsent?_of_broken hd
        have hnone : d.toString? = none :=
          Option.not_isSome_iff_eq_none.mp (mt Text.isSome_toString?_iff.mp hd)
        simp only [Answer.document, hnone, hunsent] at hdocument ⊢
        refine .unsent d ⟨rfl, _, _, rfl, audits_template (hdocument d rfl), rfl, ?_⟩ hunsent rfl
          rfl
        refine ⟨Text.unbroken_ofString _, nofun, ?_⟩
        rintro _ ⟨⟩
        exact Text.unbroken_ofString _

/-! ### The engine of this library -/

theorem contextOf?_clean {body : Value} (hbody : body.Unbroken) {context : Template.Context}
    (h : contextOf? body = some context) : ∀ f ∈ context, f.2.Clean := by
  unfold contextOf? at h
  split at h
  · cases h
    exact fun f hf => (Value.unbroken_object_iff.mp hbody f hf).2.clean
  · split at h
    · cases h
    · cases h
      exact List.forall_mem_nil _

/-- Templates without a backslash make no document that cannot be sent, and failures are told. -/
theorem renderingOf?_ofLevels {config : Config} (hwidth : config.maxWidth.Clean)
    {data : Storage.Tree}
    (hplain : ∀ name text, Template.find? data Storage.templatesDir name = some text →
      Template.IsPlain text.toList)
    (levels : Nat) (name : String) {body : Value} (hbody : body.Unbroken) :
    unsent? (renderingOf? (.ofLevels levels) config data name body) = none ∧
      isSpeechless (renderingOf? (.ofLevels levels) config data name body) = false := by
  cases hcontext : contextOf? body with
  | none => simp [renderingOf?, hcontext, unsent?, isSpeechless]
  | some context =>
    simp only [renderingOf?, hcontext, Option.map_some, Platform.ofLevels]
    cases hrender : Template.render data Storage.templatesDir (templateFile name) config
        context with
    | error e =>
      exact ⟨rfl, Bool.eq_false_iff.mpr fun h => isSpeechless_iff.mp h
        (Template.render_told hrender)⟩
    | ok d =>
      exact ⟨unsent?_of_unbroken (Template.render_unbroken (hplain _) hwidth
        (contextOf?_clean hbody hcontext) hrender), rfl⟩

end ThermalLabel.Http
