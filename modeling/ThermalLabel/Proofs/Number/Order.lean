import ThermalLabel.Proofs.Number.Exact
import ThermalLabel.Proofs.Number.Nearest

/-!
# Rounding keeps the order of numbers

Numbers of one size are rounded to multiples of one unit, and the order of their nearest multiples
is their own.  Of two numbers of different sizes the larger reaches a power of ten that the smaller
does not; it is a multiple of both units, and neither rounding passes it.
-/
namespace ThermalLabel.Number

theorem IsNearest.mono {x y : ℚ} {m n : ℤ} (hm : IsNearest x m) (hn : IsNearest y n)
    (hxy : x ≤ y) : m ≤ n := by
  rcases hxy.eq_or_lt with rfl | hlt
  · exact (hm.unique hn).le
  · by_contra hnot
    have hnext : ((n : ℚ) + 1) ≤ m := by exact_mod_cast Int.not_le.mp hnot
    have hmnear := abs_le.mp hm.near
    have hnnear := abs_le.mp hn.near
    linarith

namespace RoundsTo

variable {u : ℤ} {x y x' y' : ℚ}

theorem mono (hx : RoundsTo u x x') (hy : RoundsTo u y y') (hxy : x ≤ y) : x' ≤ y' := by
  obtain ⟨j, hj, rfl⟩ := hx
  obtain ⟨k, hk, rfl⟩ := hy
  have hunit : (0 : ℚ) < 10 ^ u := by positivity
  have hjk : j ≤ k := hj.mono hk ((div_le_div_iff_of_pos_right hunit).mpr hxy)
  exact mul_le_mul_of_nonneg_right (by exact_mod_cast hjk) hunit.le

end RoundsTo

namespace Decimal

variable {ctx : Context} {c c' : Nat} {e e' : Int}

theorem adjusted_mono (hc : c ≠ 0) (hc' : c' ≠ 0) (h : magnitude c e ≤ magnitude c' e') :
    adjusted c e ≤ adjusted c' e' := by
  rw [← pow_le_magnitude_iff hc']
  exact ((pow_le_magnitude_iff hc e _).mpr le_rfl).trans h

/-- Results are in the order of the magnitudes they stand for, also when the last places they were
rounded to differ. -/
theorem roundsTo_mono (hp : 0 < ctx.precision) {y y' : ℚ}
    (h : RoundsTo (ctx.lastPlace c e) (magnitude c e) y)
    (h' : RoundsTo (ctx.lastPlace c' e') (magnitude c' e') y')
    (hle : magnitude c e ≤ magnitude c' e') : y ≤ y' := by
  rcases Nat.eq_zero_or_pos c with rfl | hpos
  · rw [magnitude_zero] at h
    rw [h.eq_zero]
    exact h'.nonneg (magnitude_nonneg c' e')
  · have hc : c ≠ 0 := hpos.ne'
    have hc' : c' ≠ 0 := by
      rintro rfl
      rw [magnitude_zero] at hle
      exact absurd (magnitude_pos hc e) (not_lt.mpr hle)
    have hadjusted := adjusted_mono hc hc' hle
    by_cases hplace : ctx.lastPlace c e = ctx.lastPlace c' e'
    · rw [hplace] at h
      exact h.mono h' hle
    · -- The larger number is longer, and its first digit's place is above both last places.
      have hlonger : adjusted c e < adjusted c' e' ∧ ctx.lastPlace c e ≤ adjusted c' e' ∧
          ctx.lastPlace c' e' ≤ adjusted c' e' := by
        unfold Context.lastPlace at *
        omega
      obtain ⟨hlt, hlow, hhigh⟩ := hlonger
      have hbelow : y ≤ 10 ^ adjusted c' e' :=
        h.le_pow_of_le hlow (magnitude_lt_pow c e hlt).le
      have habove : 10 ^ adjusted c' e' ≤ y' :=
        h'.pow_le_of_le hhigh ((pow_le_magnitude_iff hc' e' _).mpr le_rfl)
      exact hbelow.trans habove

/-- The signs do not matter: numbers on both sides of zero stay there. -/
theorem value_roundsTo_mono (hp : 0 < ctx.precision) {s s' : Bool} {y y' : ℚ}
    (h : RoundsTo (ctx.lastPlace c e) (value s c e) y)
    (h' : RoundsTo (ctx.lastPlace c' e') (value s' c' e') y')
    (hle : value s c e ≤ value s' c' e') : y ≤ y' := by
  have hnonneg := magnitude_nonneg c e
  have hnonneg' := magnitude_nonneg c' e'
  cases s with
  | false =>
    rw [value_false] at h hle
    cases s' with
    | false =>
      rw [value_false] at h' hle
      exact roundsTo_mono hp h h' hle
    | true =>
      rw [value_true] at h' hle
      have hzero : magnitude c e = 0 := by linarith
      have hzero' : -magnitude c' e' = 0 := by linarith
      rw [hzero] at h
      rw [hzero'] at h'
      rw [h.eq_zero, h'.eq_zero]
  | true =>
    rw [value_true] at h hle
    have hmirror := h.neg
    rw [neg_neg] at hmirror
    cases s' with
    | false =>
      rw [value_false] at h'
      have hy := hmirror.nonneg hnonneg
      have hy' := h'.nonneg hnonneg'
      linarith
    | true =>
      rw [value_true] at h' hle
      have hmirror' := h'.neg
      rw [neg_neg] at hmirror'
      exact neg_le_neg_iff.mp (roundsTo_mono hp hmirror' hmirror (neg_le_neg_iff.mp hle))

end Decimal

end ThermalLabel.Number
