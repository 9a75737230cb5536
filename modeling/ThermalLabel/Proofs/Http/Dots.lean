import ThermalLabel.Http.Service
import ThermalLabel.Proofs.Label.Dots

/-!
# Answers about dots

Whether a question about dots is answered, refused or runs into a failure is decided by the length
and the resolution that its parameters spell.  Parameters that spell none are refused.  So is a
product that is too large for an integer of 28 digits, unless it is so large that it overflows.
-/
namespace ThermalLabel.Http

open Number (Decimal)
open Number.Decimal

/-- The request asks for the dots of a length `±c * 10^e` at a positive resolution. -/
def AsksDots (config : Config) (r : Request) (c : Nat) (e dpi : Int) : Prop :=
  0 < dpi ∧ ∃ negative, conversionOf config r = .ok (.finite negative c e, dpi)

theorem exists_asksDots_iff {config : Config} {r : Request} {c : Nat} {e dpi : Int}
    (h : AsksDots config r c e dpi) (P : Nat → Int → Int → Prop) :
    (∃ c' e' dpi', AsksDots config r c' e' dpi' ∧ P c' e' dpi') ↔ P c e dpi := by
  constructor
  · rintro ⟨c', e', dpi', ⟨-, negative', hasked'⟩, hP⟩
    obtain ⟨-, negative, hasked⟩ := h
    rw [hasked] at hasked'
    cases hasked'
    exact hP
  · exact fun hP => ⟨c, e, dpi, h, hP⟩

theorem isExpected_of_readDecimal {t : Text} {f : Fault} (h : readDecimal t = .error f) :
    isExpected f = true := by
  unfold readDecimal at h
  split at h
  · cases h
  · cases h
    rfl

theorem isExpected_of_readNumeral {t : Text} {f : Fault} (h : readNumeral t = .error f) :
    isExpected f = true := by
  unfold readNumeral at h
  split at h
  · cases h
  · cases h
    rfl
  · cases h
    rfl

/-- Parameters that cannot be read are the fault of the request. -/
theorem conversionOf_spec {config : Config} {n : Int} (hdpi : config.dpi = .integer n)
    (r : Request) :
    (∃ f, conversionOf config r = .error f ∧ isExpected f = true) ∨
    ∃ inches dpi, conversionOf config r = .ok (inches, dpi) ∧
      readDecimal ((r.parameter? "inches").getD "") = .ok inches := by
  unfold conversionOf
  cases hinches : readDecimal ((r.parameter? "inches").getD "") with
  | error f => exact .inl ⟨f, rfl, isExpected_of_readDecimal hinches⟩
  | ok inches =>
    cases hgiven : given? r "dpi" with
    | none =>
      rw [hdpi]
      exact .inr ⟨inches, n, rfl, rfl⟩
    | some s =>
      cases hread : readNumeral s with
      | error f =>
        refine .inl ⟨f, ?_, isExpected_of_readNumeral hread⟩
        simp only [hread, bind, Except.bind]
      | ok dpi =>
        refine .inr ⟨inches, dpi, ?_, rfl⟩
        simp only [hread, bind, Except.bind, pure, Except.pure]

/-- The answer to a length and a resolution follows their exact product. -/
theorem answerDots_of_asksDots {config : Config} {r : Request} {n : Int}
    (hdpi : config.dpi = .integer n) {c : Nat} {e dpi : Int} (h : AsksDots config r c e dpi) :
    (magnitude c e * dpi < integerEnd ∧
      (answerDots config r).response.status = if Number.writable dpi then 200 else 500) ∨
    (integerEnd ≤ magnitude c e * dpi ∧ magnitude c e * dpi < overflowStart ∧
      (answerDots config r).response.status = 400) ∨
    (overflowStart ≤ magnitude c e * dpi ∧ (answerDots config r).response.status = 500) := by
  obtain ⟨hpos, negative, hasked⟩ := h
  have hread : readDecimal ((r.parameter? "inches").getD "") = .ok (.finite negative c e) := by
    rcases conversionOf_spec hdpi r with ⟨f, herror, -⟩ | ⟨inches, dpi', hok, hread⟩
    · rw [hasked] at herror
      cases herror
    · rw [hasked] at hok
      cases hok
      exact hread
  have hcast : ((dpi.natAbs : Nat) : ℚ) = dpi := by
    rw [← Int.cast_natCast, Int.natAbs_of_nonneg hpos.le]
  have hspec := dotsOf_spec negative c e dpi
  rw [← dots_eq_dotsOf negative (representable_of_readDecimal hread), hcast] at hspec
  have hnotle : ¬ dpi ≤ 0 := by omega
  unfold answerDots
  rcases hspec with ⟨hin, m, hdots, hm⟩ | ⟨hout, hbelow, hdots⟩ | ⟨hlarge, hdots⟩
  · refine .inl ⟨hin, ?_⟩
    simp only [hasked, hdots, Decimal.isFinite, hnotle, Bool.not_true, Bool.false_or,
      decide_false, Bool.false_eq_true, if_false, Answer.json, Json.writable, Json.writableFields,
      hm, Bool.true_and, Bool.and_true]
    split <;> rfl
  · refine .inr (.inl ⟨hout, hbelow, ?_⟩)
    simp only [hasked, hdots, Decimal.isFinite, hnotle, Bool.not_true, Bool.false_or,
      decide_false, Bool.false_eq_true, if_false]
    rfl
  · refine .inr (.inr ⟨hlarge, ?_⟩)
    simp only [hasked, hdots, Decimal.isFinite, hnotle, Bool.not_true, Bool.false_or,
      decide_false, Bool.false_eq_true, if_false]
    rfl

/-- A request that asks for nothing of the kind is refused. -/
theorem answerDots_of_not_asksDots {config : Config} {r : Request} {n : Int}
    (hdpi : config.dpi = .integer n) (h : ∀ c e dpi, ¬ AsksDots config r c e dpi) :
    (answerDots config r).response.status = 400 := by
  unfold answerDots
  rcases conversionOf_spec hdpi r with ⟨f, herror, hf⟩ | ⟨inches, dpi, hok, -⟩
  · simp only [herror, expected, hf, if_true]
    rfl
  · rw [hok]
    dsimp only
    have hunusable : (!inches.isFinite || decide (dpi ≤ 0)) = true := by
      cases inches with
      | finite negative c e =>
        have hle : dpi ≤ 0 := Int.not_lt.mp fun hpos => h c e dpi ⟨hpos, negative, hok⟩
        simpa [Decimal.isFinite] using hle
      | infinite negative => rfl
      | nan negative signaling payload => rfl
    rw [if_pos hunusable]
    rfl

/-- The route answers a `GET` with what it has worked out, and shares it. -/
theorem response_of_dots {p : Platform} {config : Config} {data : Storage.Tree} {r : Request}
    (hroute : resolve r.path r.verb = .route .dots) (hget : r.verb = "GET") :
    (answer p config data r).response =
      { (answerDots config r).response with shared := true } := by
  have hverb : r.verb ≠ "OPTIONS" := by
    rw [hget]
    decide
  have hwants : r.wantsContent = true := by
    apply Request.wantsContent_of_verb
    rw [hget]
    decide
  simp only [answer, hroute, answerMatched, if_neg hverb, answerRoute, hwants, if_true]
  rfl

theorem status_of_dots {p : Platform} {config : Config} {data : Storage.Tree} {r : Request}
    (hroute : resolve r.path r.verb = .route .dots) (hget : r.verb = "GET") :
    (answer p config data r).response.status = (answerDots config r).response.status := by
  rw [response_of_dots hroute hget]

/-- A question about dots is answered exactly when its product has a nearest integer of at most 28
digits and the resolution can be written, and fails exactly when the product overflows, or the
resolution is a session setting too long to be written.  Everything else is refused. -/
theorem answer_dots_status (p : Platform) (config : Config) (data : Storage.Tree) (r : Request)
    (n : Int) (hdpi : config.dpi = .integer n) (hroute : resolve r.path r.verb = .route .dots)
    (hget : r.verb = "GET") :
    ((answer p config data r).response.status = 200 ↔ ∃ c e dpi, AsksDots config r c e dpi ∧
      magnitude c e * dpi < integerEnd ∧ Number.writable dpi = true) ∧
    ((answer p config data r).response.status = 500 ↔ ∃ c e dpi, AsksDots config r c e dpi ∧
      (overflowStart ≤ magnitude c e * dpi ∨
        magnitude c e * dpi < integerEnd ∧ Number.writable dpi = false)) ∧
    ((answer p config data r).response.status = 200 ∨
      (answer p config data r).response.status = 400 ∨
      (answer p config data r).response.status = 500) := by
  rw [status_of_dots hroute hget]
  have hends := integerEnd_le_overflowStart
  by_cases hasks : ∃ c e dpi, AsksDots config r c e dpi
  · obtain ⟨c, e, dpi, hasks⟩ := hasks
    rw [exists_asksDots_iff hasks fun c e dpi =>
        magnitude c e * dpi < integerEnd ∧ Number.writable dpi = true,
      exists_asksDots_iff hasks fun c e dpi => overflowStart ≤ magnitude c e * dpi ∨
        magnitude c e * dpi < integerEnd ∧ Number.writable dpi = false]
    rcases answerDots_of_asksDots hdpi hasks with
      ⟨hin, hstatus⟩ | ⟨hout, hbelow, hstatus⟩ | ⟨hlarge, hstatus⟩
    · have hbelow : ¬ overflowStart ≤ magnitude c e * dpi := not_le.mpr (hin.trans_le hends)
      cases hw : Number.writable dpi <;> simp [hstatus, hw, hin, hbelow]
    · simp [hstatus, hout, hbelow]
    · simp [hstatus, hlarge, hends.trans hlarge]
  · have hstatus := answerDots_of_not_asksDots hdpi fun c e dpi h => hasks ⟨c, e, dpi, h⟩
    rw [hstatus]
    refine ⟨⟨by simp, ?_⟩, ⟨by simp, ?_⟩, by simp⟩
    · rintro ⟨c, e, dpi, h, -⟩
      exact absurd ⟨c, e, dpi, h⟩ hasks
    · rintro ⟨c, e, dpi, h, -⟩
      exact absurd ⟨c, e, dpi, h⟩ hasks

/-- The dots of one inch. -/
def inchRequest : Request :=
  { method := "GET", target := "/api/dots", query := [("inches", "1.0")] }

/-- The dots of a length that can be read but not multiplied. -/
def farRequest : Request :=
  { inchRequest with query := [("inches", "1e999999")] }

theorem answer_dots_status_inch : resolve inchRequest.path inchRequest.verb = .route .dots ∧
    ∃ c e dpi, AsksDots {} inchRequest c e dpi ∧ magnitude c e * dpi < integerEnd ∧
      Number.writable dpi = true := by
  have hroute : resolve inchRequest.path inchRequest.verb = .route .dots := by decide +kernel
  have hspec :=
    answer_dots_status (.ofLevels 64) {} {} inchRequest 203 rfl hroute (by decide +kernel)
  exact ⟨hroute, hspec.1.mp (by decide +kernel)⟩

theorem answer_dots_overflow : (answer (.ofLevels 64) {} {} farRequest).response.status = 500 := by
  decide +kernel

end ThermalLabel.Http
