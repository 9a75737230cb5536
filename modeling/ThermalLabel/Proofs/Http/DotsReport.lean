import ThermalLabel.Proofs.Http.Dots
import ThermalLabel.Proofs.Number.Integer

/-!
# Asking about dots again

The answer to a question about dots tells the length and the resolution that were converted.  The
length is told with all its digits and its exponent, so the text that is told denotes the length
that was converted and no other.  Whoever asks again with what was told gets the same answer,
whatever spelling the first question used and whatever settings the second one meets.
-/
namespace ThermalLabel.Http

open Number (Decimal)

variable {config config' : Config} {data data' : Storage.Tree} {r again : Request}
  {inches : Decimal} {dpi n : Int}

/-- What is told about a length, a resolution and the number of dots. -/
def dotsReport (inches : Decimal) (dpi n : Int) : Value :=
  .object [("inches", .text (Text.ofChars inches.text)), ("dpi", .integer dpi),
    ("dots", .integer n)]

theorem conversionOf_eq_ok_iff :
    conversionOf config r = .ok (inches, dpi) ↔
      readDecimal ((r.parameter? "inches").getD "") = .ok inches ∧
      (match given? r "dpi" with
        | some s => readNumeral s
        | none => config.dpi.toInteger) = .ok dpi := by
  unfold conversionOf
  cases readDecimal ((r.parameter? "inches").getD "") with
  | error f => simp [bind, Except.bind]
  | ok length =>
    cases given? r "dpi" with
    | some s =>
      dsimp only [bind, Except.bind, pure, Except.pure]
      cases readNumeral (Text.ofString s) <;> simp
    | none =>
      dsimp only [bind, Except.bind, pure, Except.pure]
      cases config.dpi.toInteger <;> simp

/-- The answer depends on the length and the resolution alone. -/
theorem answerDots_congr (h : conversionOf config' again = conversionOf config r) :
    answerDots config' again = answerDots config r := by
  rw [answerDots, answerDots, h]

theorem expected_status (error : Text) (f : Fault) :
    (expected error f).response.status = 400 ∨ (expected error f).response.status = 500 := by
  unfold expected
  split
  · exact .inl rfl
  · exact .inr rfl

/-- An answer tells the dots of a finite length at a positive resolution, both of which can be
written. -/
theorem answerDots_of_status (h : (answerDots config r).response.status = 200) :
    ∃ inches dpi n, conversionOf config r = .ok (inches, dpi) ∧ inches.isFinite = true ∧
      0 < dpi ∧ Number.writable dpi = true ∧ dots (.integer dpi) (.decimal inches) = .ok n ∧
      (answerDots config r).response = .ok (dotsReport inches dpi n) := by
  have hexpected (error : Text) (f : Fault) : (expected error f).response.status ≠ 200 := by
    rcases expected_status error f with hs | hs <;> simp [hs]
  unfold answerDots at h ⊢
  cases hasked : conversionOf config r with
  | error f =>
    rw [hasked] at h
    exact absurd h (hexpected _ f)
  | ok asked =>
    obtain ⟨inches, dpi⟩ := asked
    rw [hasked] at h
    dsimp only at h ⊢
    split at h
    · cases h
    · rename_i husable
      rw [if_neg husable]
      rw [Bool.not_eq_true, Bool.or_eq_false_iff, Bool.not_eq_false', decide_eq_false_iff_not,
        Int.not_le] at husable
      cases hdots : dots (.integer dpi) (.decimal inches) with
      | error f =>
        rw [hdots] at h
        exact absurd h (hexpected _ f)
      | ok n =>
        rw [hdots] at h
        dsimp only [Answer.json] at h ⊢
        split at h
        · rename_i hw
          have hdpi : Number.writable dpi = true := by
            simp only [Json.writable, Json.writableFields, Bool.and_eq_true] at hw
            exact hw.2.1
          refine ⟨inches, dpi, n, rfl, husable.1, husable.2, hdpi, hdots, ?_⟩
          rw [if_pos hw]
          rfl
        · cases h

theorem ofString_ofList (cs : List Char) : Text.ofString (String.ofList cs) = Text.ofChars cs := by
  rw [Text.ofString, String.toList_ofList]

/-- The request asks for the dots of a length at a resolution, both given as texts. -/
structure Asks (r : Request) (inches dpi : String) : Prop where
  route : resolve r.path r.verb = .route .dots
  verb : r.verb = "GET"
  inches : r.parameter? "inches" = some inches
  dpi : r.parameter? "dpi" = some dpi

/-- Texts that can be read decide the question, and no setting does. -/
theorem Asks.conversionOf {s t : String} (h : Asks again s t)
    (hs : readDecimal (Text.ofString s) = .ok inches)
    (ht : readNumeral (Text.ofString t) = .ok dpi) :
    conversionOf config again = .ok (inches, dpi) := by
  rw [conversionOf_eq_ok_iff]
  constructor
  · rw [h.inches]
    exact hs
  · have hne : t ≠ "" := by
      rintro rfl
      have hempty : readNumeral (Text.ofString "") = .error (.notInteger []) := rfl
      rw [hempty] at ht
      cases ht
    have hgiven : given? again "dpi" = some t := by
      rw [given?, h.dpi]
      simpa using hne
    rw [hgiven]
    exact ht

/-- The text that is told for a resolution is read as the resolution. -/
theorem readNumeral_integerText (h : Number.writable dpi = true) :
    readNumeral (Text.ofString (String.ofList (Number.integerText dpi))) = .ok dpi := by
  rw [readNumeral, ofString_ofList, Number.readInteger_integerText h]

/-- A question about dots that is answered is settled: the length that is told is the one that was
converted, and asking for it again, at the resolution that is told, gives the same answer under any
settings. -/
theorem answer_dots_settled (p p' : Platform) (config config' : Config) (data data' : Storage.Tree)
    (hroute : resolve r.path r.verb = .route .dots) (hget : r.verb = "GET")
    (hok : (answer p config data r).response.status = 200) :
    ∃ inches dpi n, conversionOf config r = .ok (inches, dpi) ∧
      dots (.integer dpi) (.decimal inches) = .ok n ∧
      (answer p config data r).response =
        { Response.ok (dotsReport inches dpi n) with shared := true } ∧
      readDecimal (Text.ofChars inches.text) = .ok inches ∧
      ∀ again, Asks again (String.ofList inches.text) (String.ofList (Number.integerText dpi)) →
        (answer p' config' data' again).response = (answer p config data r).response := by
  rw [response_of_dots hroute hget] at hok ⊢
  obtain ⟨inches, dpi, n, hasked, hfinite, -, hdpi, hdots, hresponse⟩ := answerDots_of_status hok
  have hread : readDecimal (Text.ofChars inches.text) = .ok inches := by
    obtain ⟨hlength, -⟩ := conversionOf_eq_ok_iff.mp hasked
    cases inches with
    | finite negative c e =>
      rw [readDecimal, Decimal.ofText?_text negative (representable_of_readDecimal hlength)]
    | infinite negative => cases hfinite
    | nan negative signaling payload => cases hfinite
  refine ⟨inches, dpi, n, hasked, hdots, by rw [hresponse], hread, ?_⟩
  intro again hagain
  have hsame : conversionOf config' again = conversionOf config r := by
    rw [hasked]
    apply hagain.conversionOf _ (readNumeral_integerText hdpi)
    rw [ofString_ofList]
    exact hread
  rw [response_of_dots hagain.route hagain.verb, answerDots_congr hsame]

/-- A length and a resolution with a sign, blanks, underscores, an exponent and digits of another
script. -/
def spelledRequest : Request :=
  { inchRequest with query := [("inches", " +٢_.50E+1 "), ("dpi", "٣_00")] }

/-- What the answer tells about it. -/
def plainRequest : Request :=
  { inchRequest with query := [("inches", "25.0"), ("dpi", "300")] }

theorem answer_dots_settled_spelled :
    resolve spelledRequest.path spelledRequest.verb = .route .dots ∧ spelledRequest.verb = "GET" ∧
    (answer (.ofLevels 64) {} {} spelledRequest).response.status = 200 ∧
    (answer (.ofLevels 64) { dpi := .integer 600 } {} plainRequest).response =
      (answer (.ofLevels 64) {} {} spelledRequest).response := by
  have hroute : resolve spelledRequest.path spelledRequest.verb = .route .dots := by decide +kernel
  have hget : spelledRequest.verb = "GET" := by decide +kernel
  have hok : (answer (.ofLevels 64) {} {} spelledRequest).response.status = 200 := by decide +kernel
  have hread : conversionOf {} spelledRequest = .ok (.finite false 250 (-1), 300) := by
    decide +kernel
  obtain ⟨inches, dpi, n, hasked, -, -, -, hagain⟩ :=
    answer_dots_settled (.ofLevels 64) (.ofLevels 64) {} { dpi := .integer 600 } {} {} hroute hget
      hok
  rw [hread] at hasked
  cases hasked
  refine ⟨hroute, hget, hok, hagain plainRequest ?_⟩
  exact ⟨by decide +kernel, by decide +kernel, by decide +kernel, by decide +kernel⟩

end ThermalLabel.Http
