import ThermalLabel.Proofs.Environment
import ThermalLabel.Proofs.Http.Accounts
import ThermalLabel.Proofs.Http.DotsReport
import ThermalLabel.Proofs.Script.Defaults

/-!
# Refusals and the environment

A service under usable settings refuses a request for what the request says: any other usable
settings have it refused in the same words.  The one exception is a length without a resolution of
its own, of which a session may have more dots than an integer can count.  Under settings that are
out of range every script without settings is refused.
-/
namespace ThermalLabel.Http

open Number.Decimal

variable {p : Platform} {config config' : Config} {data data' : Storage.Tree} {r : Request}
  {script : Value}

/-- At the resolution of the session, the length that is asked about has too many dots. -/
structure ExceedsSession (config : Config) (r : Request) : Prop where
  route : resolve r.path r.verb = .route .dots
  dpi : given? r "dpi" = none
  product : ∃ c e dpi, AsksDots config r c e dpi ∧ integerEnd ≤ magnitude c e * dpi ∧
    magnitude c e * dpi < overflowStart

theorem answerRender_of_refused {e : Script.Error}
    (h : Script.run script config = .error (.error e)) :
    (answerRender config script).response = .refusal 400 e.message := by
  rw [answerRender, h]

theorem json_status_ne (v : Value) (notes : List Note) :
    (Answer.json v notes).response.status ≠ 400 := by
  rcases Answer.json_status v notes with h | h <;> simp [h]

theorem document_status_ne (s : Text) (notes : List Note) :
    (Answer.document s notes).response.status ≠ 400 := by
  rcases Answer.document_status s notes with h | h <;> simp [h]

/-- A script is answered with 400 if it has an error, and for no other reason. -/
theorem answerRender_status_iff : (answerRender config script).response.status = 400 ↔
    ∃ e, Script.run script config = .error (.error e) := by
  constructor
  · intro h
    unfold answerRender at h
    split at h
    · exact absurd h (json_status_ne _ _)
    · rename_i e he
      exact ⟨e, he⟩
    · cases h
  · rintro ⟨e, he⟩
    rw [answerRender_of_refused he]
    rfl

theorem answerRender_congr
    (hrun : Script.FailAlike (Script.run script config) (Script.run script config'))
    (h : (answerRender config script).response.status = 400) :
    (answerRender config' script).response = (answerRender config script).response := by
  obtain ⟨e, he⟩ := answerRender_status_iff.mp h
  rw [answerRender_of_refused he, answerRender_of_refused ((hrun _).mp he)]

/-- Without a resolution of its own, a request asks for the dots of its length at that of the
session. -/
theorem conversionOf_of_session {n : Int} (hdpi : config.dpi = .integer n)
    (hgiven : given? r "dpi" = none) {inches : Number.Decimal}
    (hlength : readDecimal ((r.parameter? "inches").getD "") = .ok inches) :
    conversionOf config r = .ok (inches, n) := by
  rw [conversionOf_eq_ok_iff]
  refine ⟨hlength, ?_⟩
  rw [hgiven, hdpi]
  rfl

/-- A question about dots that is refused is refused under any resolution, or there are too many
dots of the length at the resolution of the session. -/
theorem answerDots_refused {n n' : Int} (hdpi : config.dpi = .integer n)
    (hdpi' : config'.dpi = .integer n') (hn : 0 < n)
    (hroute : resolve r.path r.verb = .route .dots)
    (h : (answerDots config r).response.status = 400) :
    (answerDots config' r).response = (answerDots config r).response ∨ ExceedsSession config r := by
  by_cases hsame : conversionOf config' r = conversionOf config r
  · exact .inl (by rw [answerDots_congr hsame])
  -- The settings matter only if the request has a length and no resolution.
  have hgiven : given? r "dpi" = none := by
    cases hgiven : given? r "dpi" with
    | none => rfl
    | some s => exact absurd (by simp only [conversionOf, hgiven]) hsame
  cases hlength : readDecimal ((r.parameter? "inches").getD "") with
  | error f => exact absurd (by simp only [conversionOf, hlength, bind, Except.bind]) hsame
  | ok inches =>
    have hasked := conversionOf_of_session hdpi hgiven hlength
    have hasked' := conversionOf_of_session hdpi' hgiven hlength
    cases inches with
    | infinite negative | nan negative signaling payload =>
      left
      simp [answerDots, hasked, hasked', Number.Decimal.isFinite]
    | finite negative c e =>
      have hasks : AsksDots config r c e n := ⟨hn, negative, hasked⟩
      right
      refine ⟨hroute, hgiven, c, e, n, hasks, ?_⟩
      rcases answerDots_of_asksDots hdpi hasks with ⟨-, hs⟩ | ⟨hout, hbelow, -⟩ | ⟨-, hs⟩
      · rw [h] at hs
        split at hs <;> cases hs
      · exact ⟨hout, hbelow⟩
      · rw [h] at hs
        cases hs

/-- A resolution out of range is refused along with the length. -/
theorem answerDots_of_nonpos {n : Int} (hdpi : config.dpi = .integer n) (hn : n ≤ 0)
    (hgiven : given? r "dpi" = none) : (answerDots config r).response.status = 400 := by
  apply answerDots_of_not_asksDots hdpi
  rintro c e dpi ⟨hpos, negative, hasked⟩
  obtain ⟨-, hread⟩ := conversionOf_eq_ok_iff.mp hasked
  rw [hgiven, hdpi] at hread
  cases hread
  omega

/-- The answer follows that of the route. -/
theorem answer_response_congr {route : Route} (hroute : resolve r.path r.verb = .route route)
    (h : (answerRoute p config' data' r route).response =
      (answerRoute p config data r route).response) :
    (answer p config' data' r).response = (answer p config data r).response := by
  simp only [answer, hroute, answerMatched]
  split
  · rfl
  · split
    · rw [h]
    · rw [h]

/-- A context that is no object is refused, and nothing else about a template is. -/
theorem answerTemplate_congr {name : String} {body : Value}
    (h : (answerTemplate p config data name body).response.status = 400) :
    (answerTemplate p config' data' name body).response =
      (answerTemplate p config data name body).response := by
  unfold answerTemplate at h ⊢
  cases hcontext : contextOf? body with
  | none => rfl
  | some context =>
    rw [hcontext] at h
    dsimp only at h
    split at h
    · cases h
    · cases h
    · exact absurd h (document_status_ne _ _)

/-- What refuses the bodies of requests alike refuses the requests alike. -/
theorem withBody_congr {reply reply' : Value → Answer}
    (hbody : ∀ body, (reply body).response.status = 400 →
      (reply' body).response = (reply body).response)
    (h : (withBody p r reply).response.status = 400) :
    (withBody p r reply').response = (withBody p r reply).response := by
  unfold withBody at h ⊢
  cases hread : r.json? p.levels with
  | none => rfl
  | some body =>
    rw [hread] at h
    exact hbody body h

/-- Of the routes, that of the dots alone has something to refuse for the settings. -/
theorem answerRoute_refused {route : Route} (hroute : resolve r.path r.verb = .route route)
    {n n' : Int} (hdpi : config.dpi = .integer n) (hdpi' : config'.dpi = .integer n') (hn : 0 < n)
    (hrun : ∀ script, Script.FailAlike (Script.run script config) (Script.run script config'))
    (h : (answerRoute p config data r route).response.status = 400) :
    (answerRoute p config' data' r route).response = (answerRoute p config data r route).response ∨
      ExceedsSession config r := by
  cases route with
  | dots => exact answerDots_refused hdpi hdpi' hn hroute h
  | render =>
    left
    rw [answerRoute] at h ⊢
    apply withBody_congr _ h
    intro script
    exact answerRender_congr (hrun script)
  | template name =>
    left
    rw [answerRoute] at h ⊢
    apply withBody_congr _ h
    intro body
    exact answerTemplate_congr
  | sample =>
    simp only [answerRoute, answerSample] at h
    split at h
    · exact absurd h (document_status_ne _ _)
    · cases h
  | operations => exact .inl rfl
  | templates => cases h
  | asset => cases h

/-- Whatever a service under usable settings refuses, it refuses in the same words under all other
usable settings. -/
theorem answer_refused {n n' : Int} (hdpi : config.dpi = .integer n)
    (hdpi' : config'.dpi = .integer n') (hn : 0 < n)
    (hrun : ∀ script, Script.FailAlike (Script.run script config) (Script.run script config'))
    (h : (answer p config data r).response.status = 400) :
    (answer p config' data' r).response = (answer p config data r).response ∨
      ExceedsSession config r := by
  cases hroute : resolve r.path r.verb with
  | moved | notFound | notAllowed =>
    simp only [answer, hroute] at h
    cases h
  | route route =>
    by_cases hverb : r.verb = "OPTIONS"
    · simp only [answer, hroute, answerMatched, if_pos hverb] at h
      cases hquery : route.isQuery <;> simp [hquery, Answer.silent] at h
    · rw [(answer_of_route hroute hverb p config data).2.1] at h
      apply (answerRoute_refused hroute hdpi hdpi' hn hrun h).imp_left
      exact answer_response_congr hroute

/-- A posted script is answered with 400 if it has an error. -/
theorem answer_render_of_refused (hroute : resolve r.path r.verb = .route .render)
    (hpost : r.verb = "POST") (hscript : r.json? p.levels = some script) {e : Script.Error}
    (h : Script.run script config = .error (.error e)) :
    (answer p config data r).response.status = 400 := by
  have hverb : r.verb ≠ "OPTIONS" := by
    rw [hpost]
    decide
  rw [(answer_of_route hroute hverb p config data).2.1]
  simp only [answerRoute, withBody, hscript]
  exact answerRender_status_iff.mpr ⟨e, h⟩

/-- The settings that an environment yields can be run under unless the resolution or the width is
spelled as an integer that is not positive.  All environments but those accept the same scripts,
fail the others alike, and have the same requests refused, except that a session may have too many
dots of a length.  The rest refuse every script without settings, and every question about dots that
is left to a resolution out of range. -/
theorem refused_by_environment (p : Platform) (env : Environment) :
    (env.config.Valid ↔ env.Usable) ∧
    (env.Usable → ∀ env' : Environment, env'.Usable →
      (∀ script, Script.FailAlike (Script.run script env.config) (Script.run script env'.config)) ∧
      ∀ data data' r, (answer p env.config data r).response.status = 400 →
        (answer p env'.config data' r).response = (answer p env.config data r).response ∨
          ExceedsSession env.config r) ∧
    (¬ env.Usable → ∀ script steps, Script.steps? script = some steps →
      Script.settingsBlock script = .null →
      (∃ name shown,
        Script.run script env.config = .error (.error (.settingNotPositive name shown))) ∧
      ∀ data r, resolve r.path r.verb = .route .render → r.verb = "POST" →
        r.json? p.levels = some script → (answer p env.config data r).response.status = 400) ∧
    (env.dpi ≤ 0 → ∀ data r, resolve r.path r.verb = .route .dots → r.verb = "GET" →
      given? r "dpi" = none → (answer p env.config data r).response.status = 400) := by
  refine ⟨Environment.config_valid_iff, ?_, ?_, ?_⟩
  · intro h env' h'
    have hrun (script : Value) :
        Script.FailAlike (Script.run script env.config) (Script.run script env'.config) := by
      apply Script.run_alike script (Environment.config_valid_iff.mpr h)
        (Environment.config_valid_iff.mpr h')
      · exact env.short_maxWidth
      · exact env'.short_maxWidth
    refine ⟨hrun, ?_⟩
    intro data data' r hstatus
    obtain ⟨hdpi, -⟩ := Environment.usable_iff.mp h
    exact answer_refused rfl rfl hdpi hrun hstatus
  · intro h script steps hsteps hblock
    have hnonpos : env.dpi ≤ 0 ∨ env.maxWidth ≤ 0 := by
      rw [Environment.usable_iff] at h
      omega
    have hwidth := Value.short_integer.mp env.short_maxWidth
    obtain ⟨name, shown, hrefused⟩ := Script.run_of_nonpos (.flag env.suppressSeparator) hsteps
      hblock env.writable_dpi hwidth hnonpos
    refine ⟨⟨name, shown, hrefused⟩, ?_⟩
    intro data r hroute hpost hscript
    exact answer_render_of_refused hroute hpost hscript hrefused
  · intro h data r hroute hget hgiven
    rw [status_of_dots hroute hget]
    exact answerDots_of_nonpos rfl h hgiven

/-- A resolution with blanks, an underscore and digits of another script, and a width that spells no
integer. -/
def spelledEnvironment : Environment :=
  [("ZPLGEN_DPI", " +٣_00 "), ("ZPLGEN_MAX_WIDTH", "7.5")]

/-- A resolution of zero. -/
def zeroEnvironment : Environment :=
  [("ZPLGEN_DPI", "0")]

/-- A request for a label, without a script. -/
def noScript : Request :=
  { Service.emptyScript with body := "" }

theorem refused_by_environment_spelled : spelledEnvironment.config.Valid ∧
    (answer (.ofLevels 64) spelledEnvironment.config {} noScript).response.status = 400 ∧
    (answer (.ofLevels 64) (Environment.config []) {} noScript).response =
      (answer (.ofLevels 64) spelledEnvironment.config {} noScript).response := by
  have husable : spelledEnvironment.Usable := by decide +kernel
  have hempty : Environment.Usable [] := by decide
  have hstatus :
      (answer (.ofLevels 64) spelledEnvironment.config {} noScript).response.status = 400 := by
    decide +kernel
  obtain ⟨hvalid, halike, -, -⟩ :=
    refused_by_environment (.ofLevels 64) spelledEnvironment
  refine ⟨hvalid.mpr husable, hstatus, ?_⟩
  rcases (halike husable [] hempty).2 {} {} noScript hstatus with hsame | hexceeds
  · exact hsame
  · exact absurd hexceeds.route (by decide +kernel)

/-- A script without steps and a question about one inch are refused for the resolution of the
process, which they do not mention. -/
theorem refused_at_zero :
    ¬ zeroEnvironment.config.Valid ∧
    (answer (.ofLevels 64) zeroEnvironment.config {} Service.emptyScript).response.status = 400 ∧
    (answer (.ofLevels 64) zeroEnvironment.config {} inchRequest).response.status = 400 ∧
    (answer (.ofLevels 64) (Environment.config []) {} Service.emptyScript).response.status = 200 ∧
    (answer (.ofLevels 64) (Environment.config []) {} inchRequest).response.status = 200 := by
  rw [Environment.config_valid_iff]
  decide +kernel

end ThermalLabel.Http
