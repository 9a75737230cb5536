import ThermalLabel.Proofs.Label.Dots
import ThermalLabel.Proofs.Number.Nearest

/-!
# How near the dots of a length are

The product of a length and a resolution is rounded to the working precision before it is rounded to
an integer.  The dots are the integer nearest to the exact product, unless the first rounding ends
at a tie whose even neighbour lies on its other side.
-/
namespace ThermalLabel

open Number (Decimal IsNearest RoundsTo Misled)
open Number.Decimal

/-- The exact product of a length and a resolution. -/
def exactDots (negative : Bool) (c : Nat) (e dpi : Int) : ℚ :=
  Number.signed negative c * 10 ^ e * dpi

theorem exactDots_eq (negative : Bool) (c : Nat) (e : Int) {dpi : Int} (hdpi : 0 < dpi) :
    exactDots negative c e dpi =
      if negative then -magnitude (c * dpi.natAbs) e else magnitude (c * dpi.natAbs) e := by
  have hcast : ((dpi.natAbs : Nat) : ℚ) = dpi := by
    rw [← Int.cast_natCast, Int.natAbs_of_nonneg hdpi.le]
  rw [magnitude_product, hcast, exactDots, magnitude]
  cases negative
  · simp [Number.signed]
  · simp [Number.signed]

/-- A length with dots was read from its text as it is. -/
theorem dotsOf_of_dots {negative : Bool} {c : Nat} {e dpi n : Int}
    (h : dots (.integer dpi) (.decimal (.finite negative c e)) = .ok n) :
    dotsOf (.finite negative c e) (.ofInt dpi) = .ok n := by
  have hrep : representable c e = true := by
    by_contra hnot
    have hread : readDecimal (Text.ofChars (Decimal.text (.finite negative c e))) =
        .error (.arithmetic .invalidOperation) := by
      rw [readDecimal, ofText?_finite, finite?, if_neg hnot]
    simp only [dots, Value.toText, hread, bind, Except.bind] at h
    cases h
  rwa [dots_eq_dotsOf negative hrep] at h

/-- The exact product of a length that has dots lies in the range of the integers. -/
theorem product_lt_of_dotsOf {negative : Bool} {c : Nat} {e dpi n : Int}
    (h : dotsOf (.finite negative c e) (.ofInt dpi) = .ok n) :
    magnitude (c * dpi.natAbs) e < 10 ^ (28 : Int) := by
  have hend : integerEnd < 10 ^ (28 : Int) := by norm_num [integerEnd]
  rw [magnitude_product]
  rcases dotsOf_spec negative c e dpi with ⟨hin, -⟩ | ⟨-, -, herror⟩ | ⟨-, herror⟩
  · exact hin.trans hend
  · rw [herror] at h
    cases h
  · rw [herror] at h
    cases h

/-- The two roundings of a length. -/
theorem dotsOf_roundings {negative : Bool} {c : Nat} {e dpi n : Int} (hdpi : 0 < dpi)
    (h : dotsOf (.finite negative c e) (.ofInt dpi) = .ok n) : ∃ product,
      RoundsTo (working.lastPlace (c * dpi.natAbs) e) (exactDots negative c e dpi) product ∧
      IsNearest product n := by
  unfold dotsOf at h
  rw [mul_ofInt, decide_eq_false (by omega), Bool.bne_false] at h
  cases hround : round working negative (c * dpi.natAbs) e with
  | error f =>
    rw [hround] at h
    cases h
  | ok product =>
    obtain ⟨c', e', rfl, hrounds⟩ := round_roundsTo (by decide) hround
    rw [hround] at h
    rcases @toIntegral_spec working negative c' e' with ⟨-, herror⟩ | ⟨-, k, hwhole, hk⟩
    · simp only [fromArithmetic, herror, bind, Except.bind] at h
      cases h
    · simp only [fromArithmetic, hwhole, bind, Except.bind, decimalToInteger,
        integerPart_of_le hk] at h
      obtain ⟨k', hsame, hnearest⟩ := toIntegral_isNearest hwhole
      cases hsame
      cases h
      rw [exactDots_eq negative c e hdpi]
      cases negative with
      | false => exact ⟨_, hrounds, hnearest⟩
      | true => exact ⟨_, hrounds.neg, hnearest.neg⟩

/-- The first of them is to an integer or a finer unit. -/
theorem exists_unit {negative : Bool} {c : Nat} {e dpi n : Int} {product : ℚ} (hdpi : 0 < dpi)
    (h : dotsOf (.finite negative c e) (.ofInt dpi) = .ok n)
    (hrounds : RoundsTo (working.lastPlace (c * dpi.natAbs) e) (exactDots negative c e dpi)
      product) :
    ∃ u ≤ 0, RoundsTo u (exactDots negative c e dpi) product := by
  by_cases hc : c * dpi.natAbs = 0
  · have hzero : exactDots negative c e dpi = 0 := by
      rw [exactDots_eq negative c e hdpi, hc, magnitude_zero]
      simp
    rw [hzero] at hrounds ⊢
    rw [hrounds.eq_zero]
    exact ⟨0, le_rfl, by simpa using RoundsTo.self 0 0⟩
  · refine ⟨_, ?_, hrounds⟩
    have hadjusted : adjusted (c * dpi.natAbs) e < 28 := by
      rw [← not_le, ← pow_le_magnitude_iff hc, not_le]
      exact product_lt_of_dotsOf h
    have hprecision : working.precision = 28 := rfl
    exact max_le (by decide) (by omega)

theorem isNearest_of_fewDigits {negative : Bool} {c : Nat} {e dpi n : Int} {product : ℚ}
    (hdpi : 0 < dpi)
    (hrounds : RoundsTo (working.lastPlace (c * dpi.natAbs) e) (exactDots negative c e dpi)
      product) (hn : IsNearest product n)
    (hfew : Number.digitCount (c * dpi.natAbs) ≤ working.precision) :
    IsNearest (exactDots negative c e dpi) n := by
  rw [exactDots_eq negative c e hdpi] at hrounds ⊢
  cases negative with
  | false => exact isNearest_of_few (by decide) (by decide) hrounds hn hfew
  | true =>
    have hmirrored := hrounds.neg
    rw [if_pos rfl, neg_neg] at hmirrored
    have hnearest := (isNearest_of_few (by decide) (by decide) hmirrored hn.neg hfew).neg
    rwa [neg_neg] at hnearest

/-- The dots of a length are the integer nearest to its exact product with the resolution, and the
even one of two, whenever the product has no more digits than the working precision.  Always they
are nearest to the product as rounded to that precision, and less than one dot away from the exact
one; they are not the nearest integer exactly when the rounded product is a tie, and they lie on the
other side of it. -/
theorem dots_nearest (negative : Bool) (c : Nat) (e dpi n : Int) (hdpi : 0 < dpi)
    (h : dots (.integer dpi) (.decimal (.finite negative c e)) = .ok n) :
    (Number.digitCount (c * dpi.natAbs) ≤ working.precision →
      IsNearest (exactDots negative c e dpi) n) ∧
    |exactDots negative c e dpi - n| < 1 ∧
    ∃ product,
      RoundsTo (working.lastPlace (c * dpi.natAbs) e) (exactDots negative c e dpi) product ∧
      IsNearest product n ∧
      (IsNearest (exactDots negative c e dpi) n ↔ ¬ Misled (exactDots negative c e dpi) product n) := by
  have hdots := dotsOf_of_dots h
  obtain ⟨product, hrounds, hn⟩ := dotsOf_roundings hdpi hdots
  obtain ⟨u, hu, hunit⟩ := exists_unit hdpi hdots hrounds
  exact ⟨isNearest_of_fewDigits hdpi hrounds hn, hunit.abs_sub_lt_one hu hn, product, hrounds, hn,
    hunit.isNearest_iff hu hn⟩

theorem dots_nearest_short :
    dots (.integer 203) (.decimal (.finite true 4999999999999999 (-16))) = .ok (-101) ∧
    IsNearest (exactDots true 4999999999999999 (-16) 203) (-101) := by
  have hdots : dots (.integer 203) (.decimal (.finite true 4999999999999999 (-16))) =
      .ok (-101) := by decide +kernel
  obtain ⟨hfew, -⟩ := dots_nearest true 4999999999999999 (-16) 203 (-101) (by decide) hdots
  exact ⟨hdots, hfew (by decide +kernel)⟩

/-- Just below half an inch the exact product is below `101.5`, and the rounded one is not. -/
theorem dots_misled :
    dots (.integer 203) (.decimal (.finite false 499999999999999999999999999999 (-30))) =
      .ok 102 ∧
    IsNearest (exactDots false 499999999999999999999999999999 (-30) 203) 101 ∧
    ¬ IsNearest (exactDots false 499999999999999999999999999999 (-30) 203) 102 := by
  have hnearest : IsNearest (exactDots false 499999999999999999999999999999 (-30) 203) 101 := by
    constructor
    · norm_num [exactDots, Number.signed, abs_le]
    · norm_num [exactDots, Number.signed, abs_of_pos]
  exact ⟨by decide +kernel, hnearest, fun h => absurd (h.unique hnearest) (by decide)⟩

end ThermalLabel
