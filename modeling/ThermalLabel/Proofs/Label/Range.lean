import ThermalLabel.Proofs.Label.Nearest
import ThermalLabel.Proofs.Number.Order

/-!
# Range, symmetry and order of dots

Which lengths have dots is decided by their exact product with the resolution, whatever their sign
and however many digits they have.  The dots of the opposite length are the opposite dots, because
no rounding looks at the sign, and a longer length never has fewer dots.
-/
namespace ThermalLabel

namespace Number

theorem signed_not (s : Bool) (n : Nat) : signed (!s) n = -signed s n := by
  cases s
  · rfl
  · exact (neg_neg _).symm

namespace Decimal

variable {ctx : Context}

theorem round_not (s : Bool) (c : Nat) (e : Int) :
    round ctx (!s) c e = (round ctx s c e).map neg := by
  unfold round
  dsimp only
  split_ifs <;> rfl

theorem toIntegral_neg (d : Decimal) : toIntegral ctx d.neg = (toIntegral ctx d).map neg := by
  cases d with
  | finite s c e =>
    unfold neg toIntegral
    dsimp only
    split_ifs <;> rfl
  | infinite s => rfl
  | nan s g p => cases g <;> rfl

end Decimal

end Number

open Number (Decimal IsNearest RoundsTo)
open Number.Decimal

theorem integerPart_not (s : Bool) (c : Nat) (e : Int) :
    integerPart (!s) c e = (integerPart s c e).map Neg.neg := by
  unfold integerPart
  simp only [Number.signed_not]
  split_ifs <;> rfl

theorem decimalToInteger_neg (d : Decimal) :
    decimalToInteger d.neg = (decimalToInteger d).map Neg.neg := by
  cases d with
  | finite s c e => exact integerPart_not s c e
  | _ => rfl

theorem dotsOf_not (s : Bool) (c : Nat) (e dpi : Int) :
    dotsOf (.finite (!s) c e) (.ofInt dpi) = (dotsOf (.finite s c e) (.ofInt dpi)).map Neg.neg := by
  unfold dotsOf
  rw [mul_ofInt, mul_ofInt, Bool.not_bne, round_not]
  cases round working (s != decide (dpi < 0)) (c * dpi.natAbs) e with
  | error f => rfl
  | ok product =>
    simp only [Except.map, fromArithmetic, bind, Except.bind, toIntegral_neg]
    cases toIntegral working product with
    | error f => rfl
    | ok whole => exact decimalToInteger_neg whole

/-- A length of exactly `x` inches is a finite decimal that can be represented. -/
inductive IsLength : Decimal → ℚ → Prop
  | finite {negative : Bool} {c : Nat} {e : Int} (h : representable c e = true) :
      IsLength (.finite negative c e) (value negative c e)

variable {dpi : Int}

theorem abs_value_mul (s : Bool) (c : Nat) (e dpi : Int) :
    |value s c e * dpi| = magnitude c e * dpi.natAbs := by
  rw [abs_mul, abs_value, Nat.cast_natAbs, Int.cast_abs]

theorem value_mul (s : Bool) (c : Nat) (e : Int) (hdpi : 0 < dpi) :
    exactDots s c e dpi = value s (c * dpi.natAbs) e := by
  rw [exactDots_eq s c e hdpi]
  cases s
  · rw [value_false]
    rfl
  · rw [value_true]
    rfl

/-- A length either has dots or is refused, as its exact product with the resolution decides. -/
theorem IsLength.dots_cases {d : Decimal} {x : ℚ} (h : IsLength d x) (dpi : Int) :
    (|x * dpi| < integerEnd ∧ ∃ n, dots (.integer dpi) (.decimal d) = .ok n) ∨
    (integerEnd ≤ |x * dpi| ∧
      ∃ signal, dots (.integer dpi) (.decimal d) = .error (.arithmetic signal)) := by
  obtain @⟨s, c, e, hrep⟩ := h
  rw [abs_value_mul, dots_eq_dotsOf s hrep]
  rcases dotsOf_spec s c e dpi with ⟨hin, n, hn, -⟩ | ⟨hout, -, herror⟩ | ⟨hout, herror⟩
  · exact .inl ⟨hin, n, hn⟩
  · exact .inr ⟨hout, _, herror⟩
  · exact .inr ⟨integerEnd_le_overflowStart.trans hout, _, herror⟩

theorem IsLength.dots_neg {d : Decimal} {x : ℚ} (h : IsLength d x) (dpi : Int) :
    dots (.integer dpi) (.decimal d.neg) = (dots (.integer dpi) (.decimal d)).map Neg.neg := by
  obtain @⟨s, c, e, hrep⟩ := h
  rw [neg, dots_eq_dotsOf (!s) hrep, dots_eq_dotsOf s hrep, dotsOf_not]

theorem IsLength.dots_near {d : Decimal} {x : ℚ} {n : Int} (h : IsLength d x) (hdpi : 0 < dpi)
    (hn : dots (.integer dpi) (.decimal d) = .ok n) : |x * dpi - n| < 1 := by
  obtain @⟨s, c, e, -⟩ := h
  have hdots := dotsOf_of_dots hn
  obtain ⟨product, hrounds, hnear⟩ := dotsOf_roundings hdpi hdots
  obtain ⟨u, hu, hunit⟩ := exists_unit hdpi hdots hrounds
  exact hunit.abs_sub_lt_one hu hnear

theorem IsLength.dots_mono {d d' : Decimal} {x x' : ℚ} {n n' : Int} (h : IsLength d x)
    (h' : IsLength d' x') (hdpi : 0 < dpi) (hle : x ≤ x')
    (hn : dots (.integer dpi) (.decimal d) = .ok n)
    (hn' : dots (.integer dpi) (.decimal d') = .ok n') : n ≤ n' := by
  obtain @⟨s, c, e, -⟩ := h
  obtain @⟨s', c', e', -⟩ := h'
  obtain ⟨product, hrounds, hnear⟩ := dotsOf_roundings hdpi (dotsOf_of_dots hn)
  obtain ⟨product', hrounds', hnear'⟩ := dotsOf_roundings hdpi (dotsOf_of_dots hn')
  have hexact : exactDots s c e dpi ≤ exactDots s' c' e' dpi :=
    mul_le_mul_of_nonneg_right hle (by exact_mod_cast hdpi.le)
  rw [value_mul s c e hdpi] at hrounds hexact
  rw [value_mul s' c' e' hdpi] at hrounds' hexact
  exact hnear.mono hnear' (value_roundsTo_mono (by decide) hrounds hrounds' hexact)

/-- At a positive resolution exactly those lengths have dots whose product with it is below
`10^28 - 1/2` in magnitude, and all others end in an error of the decimal arithmetic.  The dots are
less than one away from the product.  The opposite length has the opposite dots, or ends in the same
error, and the dots of two lengths are in the order of the lengths. -/
theorem dots_range (dpi : Int) (hdpi : 0 < dpi) :
    (∀ d x, IsLength d x →
      ((∃ n, dots (.integer dpi) (.decimal d) = .ok n) ↔ |x * dpi| < integerEnd) ∧
      (integerEnd ≤ |x * dpi| →
        ∃ signal, dots (.integer dpi) (.decimal d) = .error (.arithmetic signal)) ∧
      (∀ n, dots (.integer dpi) (.decimal d) = .ok n → |x * dpi - n| < 1) ∧
      dots (.integer dpi) (.decimal d.neg) = (dots (.integer dpi) (.decimal d)).map Neg.neg) ∧
    ∀ d d' x x' n n', IsLength d x → IsLength d' x' → x ≤ x' →
      dots (.integer dpi) (.decimal d) = .ok n → dots (.integer dpi) (.decimal d') = .ok n' →
      n ≤ n' := by
  constructor
  · intro d x h
    refine ⟨?_, ?_, fun n => h.dots_near hdpi, h.dots_neg dpi⟩
    · rcases h.dots_cases dpi with ⟨hin, hok⟩ | ⟨hout, signal, herror⟩
      · exact iff_of_true hok hin
      · refine iff_of_false ?_ (not_lt.mpr hout)
        rintro ⟨n, hn⟩
        rw [herror] at hn
        cases hn
    · intro hout
      rcases h.dots_cases dpi with ⟨hin, -⟩ | ⟨-, herror⟩
      · exact absurd hin (not_lt.mpr hout)
      · exact herror
  · intro d d' x x' n n' h h' hle hn hn'
    exact h.dots_mono h' hdpi hle hn hn'

/-- One dot an inch: the last tenth of an inch that has dots, and the first that has none. -/
theorem dots_range_tenths :
    (0 : Int) < 1 ∧
    (∃ n, dots (.integer 1) (.decimal (.finite true 99999999999999999999999999994 (-1))) = .ok n) ∧
    ∃ signal, dots (.integer 1) (.decimal (.finite true 99999999999999999999999999995 (-1))) =
      .error (.arithmetic signal) := by
  have hlast : IsLength (.finite true 99999999999999999999999999994 (-1)) _ :=
    .finite (by decide +kernel)
  have hfirst : IsLength (.finite true 99999999999999999999999999995 (-1)) _ :=
    .finite (by decide +kernel)
  have hrange := (dots_range 1 (by decide)).1
  refine ⟨by decide, (hrange _ _ hlast).1.mpr ?_, (hrange _ _ hfirst).2.1 ?_⟩
  · norm_num [value, Number.signed, integerEnd, abs_of_neg]
  · norm_num [value, Number.signed, integerEnd, abs_of_neg]

end ThermalLabel
