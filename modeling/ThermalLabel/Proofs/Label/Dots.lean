import ThermalLabel.Label.Dots
import ThermalLabel.Proofs.Number.Numeral
import ThermalLabel.Proofs.Number.Rounding

/-!
# When a length has a number of dots

A length at a positive resolution has a number of dots when the exact product lies below
`10^28 - 1/2`.  Beyond that the product either has too many digits to be rounded to an integer, or
is so large that the multiplication itself overflows.
-/
namespace ThermalLabel

open Number (Decimal)
open Number.Decimal

/-- The least number whose nearest integer has too many digits. -/
def integerEnd : ℚ :=
  10 ^ 28 - 1 / 2

/-- The least number that overflows. -/
def overflowStart : ℚ :=
  integerEnd * 10 ^ (999972 : Int)

theorem tippingPoint_integerEnd :
    tippingPoint working.precision working.precision = integerEnd := by
  simp [tippingPoint, working, integerEnd]

theorem tippingPoint_overflowStart :
    tippingPoint working.precision (working.maxExponent + 1) = overflowStart := by
  have hexponent : (999999 : Int) + 1 - (28 : Nat) = 999972 := by norm_num
  simp only [tippingPoint, working, overflowStart, integerEnd, hexponent]

theorem integerEnd_le_overflowStart : integerEnd ≤ overflowStart := by
  have hone : (1 : ℚ) ≤ 10 ^ (999972 : Int) := one_le_zpow₀ (by norm_num) (by norm_num)
  have hpos : 0 ≤ integerEnd := by norm_num [integerEnd]
  exact le_mul_of_one_le_right hpos hone

theorem digitCount_le_maxDigits {n : Nat} (hn : n ≤ 10 ^ working.precision) :
    Number.digitCount n ≤ Number.maxDigits := by
  have hcount : Number.digitCount n ≤ 29 := by
    rw [Number.digitCount_le_iff (by decide)]
    exact Nat.lt_of_le_of_lt hn (by decide)
  exact Nat.le_trans hcount (by decide)

/-- A nearest integer within the precision is short enough to be formed. -/
theorem integerPart_of_le {n : Nat} (hn : n ≤ 10 ^ working.precision) (negative : Bool) :
    integerPart negative n 0 = .ok (Number.signed negative n) := by
  have hshort := digitCount_le_maxDigits hn
  rcases Nat.eq_zero_or_pos n with rfl | hpos
  · cases negative <;> rfl
  · simp [integerPart, hpos.ne', hshort]

theorem magnitude_product (c : Nat) (e dpi : Int) :
    magnitude (c * dpi.natAbs) e = magnitude c e * dpi.natAbs := by
  simp only [magnitude, Nat.cast_mul]
  ring

theorem mul_ofInt (negative : Bool) (c : Nat) (e dpi : Int) :
    mul working (.finite negative c e) (.ofInt dpi) =
      round working (negative != decide (dpi < 0)) (c * dpi.natAbs) e := by
  simp only [mul, ofInt, Int.add_zero]

/-- The exact product decides between the three outcomes of a conversion. -/
theorem dotsOf_spec (negative : Bool) (c : Nat) (e dpi : Int) :
    (magnitude c e * dpi.natAbs < integerEnd ∧
      ∃ n, dotsOf (.finite negative c e) (.ofInt dpi) = .ok n ∧ Number.writable n = true) ∨
    (integerEnd ≤ magnitude c e * dpi.natAbs ∧ magnitude c e * dpi.natAbs < overflowStart ∧
      dotsOf (.finite negative c e) (.ofInt dpi) = .error (.arithmetic .invalidOperation)) ∨
    (overflowStart ≤ magnitude c e * dpi.natAbs ∧
      dotsOf (.finite negative c e) (.ofInt dpi) = .error (.arithmetic .overflow)) := by
  obtain ⟨s, hmul⟩ : ∃ s, mul working (.finite negative c e) (.ofInt dpi) =
      round working s (c * dpi.natAbs) e := ⟨_, mul_ofInt negative c e dpi⟩
  have hround := @round_spec working (by decide) (by decide) s (c * dpi.natAbs) e
  rw [tippingPoint_overflowStart, magnitude_product] at hround
  rcases hround with ⟨hlarge, herror⟩ | ⟨hbelow, c', e', hok, hreach⟩
  · refine .inr (.inr ⟨hlarge, ?_⟩)
    simp only [dotsOf, hmul, herror, fromArithmetic, bind, Except.bind]
  · have hwhole := hreach working.precision (by decide)
    rw [tippingPoint_integerEnd] at hwhole
    rcases @toIntegral_spec working s c' e' with ⟨hlarge, herror⟩ | ⟨hsmall, n, hint, hn⟩
    · refine .inr (.inl ⟨hwhole.mp hlarge, hbelow, ?_⟩)
      simp only [dotsOf, hmul, hok, herror, fromArithmetic, bind, Except.bind]
    · refine .inl ⟨not_le.mp fun h => absurd (hwhole.mpr h) (not_le.mpr hsmall), ?_⟩
      refine ⟨Number.signed s n, ?_, ?_⟩
      · simp only [dotsOf, hmul, hok, hint, fromArithmetic, bind, Except.bind, decimalToInteger]
        exact integerPart_of_le hn s
      · simpa [Number.writable, Number.natAbs_signed] using digitCount_le_maxDigits hn

/-- The written form of a length gives the length back. -/
theorem dots_eq_dotsOf (negative : Bool) {c : Nat} {e : Int} (h : representable c e = true)
    (dpi : Int) :
    dots (.integer dpi) (.decimal (.finite negative c e)) =
      dotsOf (.finite negative c e) (.ofInt dpi) := by
  have hread : readDecimal (Text.ofChars (Decimal.text (.finite negative c e))) =
      .ok (.finite negative c e) := by
    rw [readDecimal, ofText?_text negative h]
  simp only [dots, Value.toText, Value.toDecimal, Value.numeric?, Value.integer?, hread, bind,
    Except.bind, Option.map_some]

theorem representable_of_readDecimal {t : Text} {negative : Bool} {c : Nat} {e : Int}
    (h : readDecimal t = .ok (.finite negative c e)) : representable c e = true := by
  unfold readDecimal at h
  split at h
  · rename_i hread
    cases h
    exact representable_of_ofText? hread
  · cases h

end ThermalLabel
