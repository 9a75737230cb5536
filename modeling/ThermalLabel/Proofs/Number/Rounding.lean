import Mathlib.Algebra.Order.Field.Power
import Mathlib.Data.Rat.Cast.Order
import Mathlib.Tactic.Linarith
import Mathlib.Tactic.Positivity
import Mathlib.Tactic.Ring
import ThermalLabel.Number.Decimal
import ThermalLabel.Proofs.Number.Digits

/-!
# Where decimal arithmetic ends

Decimal arithmetic is compared with exact rational arithmetic.  Whether a result that was rounded
to the precision of a context reaches a power of ten depends on the exact number alone: it does
from half a unit of the last digit below that power.  This decides both ends of the range, the
numbers that overflow and those whose nearest integer has too many digits.
-/
namespace ThermalLabel.Number

theorem div_le_divEven (a b : Nat) : a / b ≤ divEven a b := by
  unfold divEven
  dsimp only
  split
  · omega
  · split <;> omega

/-- A quotient rounds to an even number, or beyond, from half a unit below it. -/
theorem le_divEven_iff_of_even {a b q : Nat} (hb : 0 < b) (hq : q % 2 = 0) :
    q ≤ divEven a b ↔ 2 * (q * b) ≤ 2 * a + b := by
  have hsplit : b * (a / b) + a % b = a := Nat.div_add_mod a b
  have hrem : a % b < b := Nat.mod_lt a hb
  have hcomm : b * (a / b) = a / b * b := Nat.mul_comm _ _
  rcases Nat.lt_or_ge (a / b) q with hlt | hle
  · rcases Nat.eq_or_lt_of_le hlt with heq | hbeyond
    · -- The next integer is even, so a quotient halfway to it goes there.
      have hodd : a / b % 2 = 1 := by omega
      have hnext : q * b = a / b * b + b := by rw [← heq, Nat.succ_mul]
      unfold divEven
      dsimp only
      split
      · omega
      · split <;> omega
    · have htwo : (a / b + 2) * b ≤ q * b := Nat.mul_le_mul_right b hbeyond
      have hexpand : (a / b + 2) * b = a / b * b + 2 * b := Nat.add_mul _ _ _
      unfold divEven
      dsimp only
      split
      · omega
      · split <;> omega
  · have hround := div_le_divEven a b
    have hmul : q * b ≤ a / b * b := Nat.mul_le_mul_right b hle
    omega

namespace Decimal

/-- The number `coefficient * 10^exponent`. -/
def magnitude (coefficient : Nat) (exponent : Int) : ℚ :=
  coefficient * 10 ^ exponent

theorem magnitude_zero (exponent : Int) : magnitude 0 exponent = 0 := by
  rw [magnitude, Nat.cast_zero, zero_mul]

theorem magnitude_one (exponent : Int) : magnitude 1 exponent = 10 ^ exponent := by
  rw [magnitude, Nat.cast_one, one_mul]

theorem magnitude_nonneg (c : Nat) (e : Int) : 0 ≤ magnitude c e := by
  unfold magnitude
  positivity

theorem magnitude_pos {c : Nat} (hc : c ≠ 0) (e : Int) : 0 < magnitude c e := by
  have hone : (0 : ℚ) < c := by exact_mod_cast Nat.pos_of_ne_zero hc
  unfold magnitude
  positivity

/-- Half a unit of the last of `precision` digits below `10^k`. -/
def tippingPoint (precision : Nat) (k : Int) : ℚ :=
  (10 ^ precision - 1 / 2) * 10 ^ (k - precision)

theorem ten_zpow_add (j : Int) (n : Nat) : (10 : ℚ) ^ (j + n) = 10 ^ j * 10 ^ n := by
  rw [zpow_add₀ (by norm_num), zpow_natCast]

theorem pow_eq_mul_tail (p : Nat) (k : Int) : (10 : ℚ) ^ k = 10 ^ p * 10 ^ (k - p) := by
  have hk : k = (k - p) + p := by omega
  conv_lhs => rw [hk, ten_zpow_add]
  ring

theorem tippingPoint_lt (p : Nat) (k : Int) : tippingPoint p k < 10 ^ k := by
  have hunit : (0 : ℚ) < 10 ^ (k - p) := by positivity
  rw [pow_eq_mul_tail p k, tippingPoint]
  linarith

theorem pow_le_tippingPoint {p : Nat} {j k : Int} (hjk : j < k) : 10 ^ j ≤ tippingPoint p k := by
  have hunit : (0 : ℚ) < 10 ^ (k - p) := by positivity
  have hp : (1 : ℚ) ≤ 10 ^ p := one_le_pow₀ (by norm_num)
  have hj : (10 : ℚ) ^ j ≤ 10 ^ (k - 1) := zpow_le_zpow_right₀ (by norm_num) (by omega)
  have htenth : (10 : ℚ) ^ k = 10 ^ (k - 1) * 10 := by
    rw [← zpow_add_one₀ (by norm_num)]
    congr 1
    omega
  have hk := pow_eq_mul_tail p k
  have hscale : (1 : ℚ) * 10 ^ (k - p) ≤ 10 ^ p * 10 ^ (k - p) :=
    mul_le_mul_of_nonneg_right hp hunit.le
  rw [tippingPoint]
  linarith

theorem magnitude_add (c : Nat) (e : Int) (n : Nat) :
    magnitude c (e + n) = magnitude (c * 10 ^ n) e := by
  simp only [magnitude, ten_zpow_add, Nat.cast_mul, Nat.cast_pow, Nat.cast_ofNat]
  ring

/-- A magnitude is a multiple of every lower power of ten. -/
theorem magnitude_of_le {c : Nat} {e u : Int} (h : u ≤ e) :
    magnitude c e = ((c * 10 ^ (e - u).toNat : Nat) : Int) * 10 ^ u := by
  obtain ⟨n, rfl⟩ := Int.le.dest h
  rw [add_sub_cancel_left, Int.toNat_natCast, magnitude_add, Int.cast_natCast]
  rfl

theorem pow_le_magnitude_iff {c : Nat} (hc : c ≠ 0) (e k : Int) :
    10 ^ k ≤ magnitude c e ↔ k ≤ adjusted c e := by
  have hunit : (0 : ℚ) < 10 ^ e := by positivity
  have hcount := digitCount_pos c
  unfold magnitude adjusted
  rcases Int.lt_or_le k e with hlt | hle
  · have hone : (1 : ℚ) ≤ c := by exact_mod_cast Nat.pos_of_ne_zero hc
    have hk : (10 : ℚ) ^ k ≤ 10 ^ e := zpow_le_zpow_right₀ (by norm_num) hlt.le
    have hce : (1 : ℚ) * 10 ^ e ≤ c * 10 ^ e := mul_le_mul_of_nonneg_right hone hunit.le
    constructor
    · intro _
      omega
    · intro _
      linarith
  · obtain ⟨n, rfl⟩ := Int.le.dest hle
    have hcancel : (10 : ℚ) ^ (e + n) ≤ c * 10 ^ e ↔ (10 : ℚ) ^ n ≤ c := by
      rw [ten_zpow_add, mul_comm, mul_le_mul_iff_left₀ hunit]
    have hnat : (10 : ℚ) ^ n ≤ c ↔ 10 ^ n ≤ c := by exact_mod_cast Iff.rfl
    rw [hcancel, hnat, pow_le_iff_lt_digitCount hc]
    omega

theorem magnitude_lt_pow (c : Nat) (e : Int) {k : Int} (hk : adjusted c e < k) :
    magnitude c e < 10 ^ k := by
  rcases Nat.eq_zero_or_pos c with rfl | hpos
  · rw [magnitude_zero]
    positivity
  · exact not_le.mp fun h => absurd ((pow_le_magnitude_iff hpos.ne' e k).mp h) (by omega)

/-- Digits beyond the first one dropped do not matter. -/
theorem dropDigits_eq_divEven (c s : Nat) : dropDigits c s = divEven c (10 ^ s) := by
  unfold dropDigits
  split
  · rename_i hfew
    have hcount := digitCount_pos c
    have hlt : c < 10 ^ (s - 1) := (digitCount_le_iff (by omega)).mp (by omega)
    have hpow : 10 ^ s = 10 ^ (s - 1) * 10 := by
      rw [← Nat.pow_succ]
      congr 1
      omega
    have hdiv : c / 10 ^ s = 0 := Nat.div_eq_of_lt (by omega)
    have hmod : c % 10 ^ s = c := Nat.mod_eq_of_lt (by omega)
    have hhalf : 2 * c < 10 ^ s := by omega
    simp [divEven, hdiv, hmod, hhalf]
  · rfl

theorem dropDigits_le {c s p : Nat} (h : c < 10 ^ (p + s)) : dropDigits c s ≤ 10 ^ p := by
  have hpos : 0 < 10 ^ s := Nat.pow_pos (by decide)
  have hdiv : c / 10 ^ s < 10 ^ p := by
    rw [Nat.div_lt_iff_lt_mul hpos, ← Nat.pow_add]
    exact h
  have hround : divEven c (10 ^ s) ≤ c / 10 ^ s + 1 := by
    unfold divEven
    dsimp only
    split
    · omega
    · split <;> omega
  rw [dropDigits_eq_divEven]
  omega

/-- Dropping digits reaches `10^p` from half a unit below it. -/
theorem pow_le_dropDigits_iff {p : Nat} (hp : 0 < p) (c s : Nat) :
    10 ^ p ≤ dropDigits c s ↔ 2 * 10 ^ (p + s) ≤ 2 * c + 10 ^ s := by
  have heven : 10 ^ p % 2 = 0 := by
    obtain ⟨n, rfl⟩ : ∃ n, p = n + 1 := ⟨p - 1, by omega⟩
    rw [Nat.pow_succ]
    omega
  rw [dropDigits_eq_divEven, le_divEven_iff_of_even (Nat.pow_pos (by decide)) heven, Nat.pow_add]

/-- A carry to one more digit gives a power of ten, and its last digit is taken off again. -/
theorem magnitude_fitPrecision {p c : Nat} (hp : 0 < p) (e : Int) (hc : p < digitCount c) :
    magnitude (fitPrecision p c e).1 (fitPrecision p c e).2 =
      magnitude (dropDigits c (digitCount c - p)) (e + (digitCount c - p : Nat)) := by
  have hsurplus : digitCount c - p ≠ 0 := by omega
  have hle : dropDigits c (digitCount c - p) ≤ 10 ^ p := by
    apply dropDigits_le
    rw [Nat.add_sub_cancel' hc.le]
    exact lt_pow_digitCount c
  simp only [fitPrecision, if_neg hsurplus]
  split
  · rename_i hcarry
    have hge : 10 ^ p ≤ dropDigits c (digitCount c - p) := by
      rw [← Nat.not_lt, ← digitCount_le_iff hp]
      omega
    have heq : dropDigits c (digitCount c - p) = 10 ^ p := Nat.le_antisymm hle hge
    have htenth : 10 ^ p / 10 * 10 ^ 1 = 10 ^ p := by
      obtain ⟨n, rfl⟩ : ∃ n, p = n + 1 := ⟨p - 1, by omega⟩
      omega
    rw [heq, ← Nat.cast_one (R := Int), magnitude_add, htenth]
  · rfl

/-- A number with few enough digits is below `10^k` by a unit of its last digit or more. -/
theorem lt_tippingPoint {p c : Nat} {e k : Int} (hc : digitCount c ≤ p)
    (hk : e + digitCount c ≤ k) : magnitude c e < tippingPoint p k := by
  have hunit : (0 : ℚ) < 10 ^ (k - p) := by positivity
  have hscaled : c * 10 ^ (p - digitCount c) + 1 ≤ 10 ^ p := by
    have hlt : c * 10 ^ (p - digitCount c) < 10 ^ digitCount c * 10 ^ (p - digitCount c) :=
      Nat.mul_lt_mul_of_pos_right (lt_pow_digitCount c) (Nat.pow_pos (by decide))
    rw [← Nat.pow_add, Nat.add_sub_cancel' hc] at hlt
    exact hlt
  have hcast : ((c * 10 ^ (p - digitCount c) : Nat) : ℚ) ≤ 10 ^ p - 1 := by
    have hcast : ((c * 10 ^ (p - digitCount c) + 1 : Nat) : ℚ) ≤ ((10 ^ p : Nat) : ℚ) :=
      Nat.cast_le.mpr hscaled
    push_cast at hcast ⊢
    linarith
  have he : e = (e - (p - digitCount c : Nat)) + (p - digitCount c : Nat) := by omega
  have hexp : (10 : ℚ) ^ (e - (p - digitCount c : Nat)) ≤ 10 ^ (k - p) :=
    zpow_le_zpow_right₀ (by norm_num) (by omega)
  calc magnitude c e
      = (c * 10 ^ (p - digitCount c) : Nat) * 10 ^ (e - (p - digitCount c : Nat)) := by
        conv_lhs => rw [he, magnitude_add]
        rfl
    _ ≤ (c * 10 ^ (p - digitCount c) : Nat) * 10 ^ (k - p) :=
        mul_le_mul_of_nonneg_left hexp (Nat.cast_nonneg _)
    _ ≤ (10 ^ p - 1) * 10 ^ (k - p) := mul_le_mul_of_nonneg_right hcast hunit.le
    _ < tippingPoint p k := by
        rw [tippingPoint]
        linarith

section Dropping

variable {p s c : Nat} (hcount : digitCount c = p + s)
include hcount

/-- The digits that stay reach every lower power of ten, as the number itself does. -/
theorem pow_le_magnitude_dropDigits (hp : 0 < p) (hc : c ≠ 0) {e k : Int} (hk : k < e + s + p) :
    10 ^ k ≤ magnitude (dropDigits c s) (e + s) := by
  have hkept : 10 ^ (p - 1) ≤ dropDigits c s := by
    have hdiv : 10 ^ (p - 1) ≤ c / 10 ^ s := by
      rw [Nat.le_div_iff_mul_le (Nat.pow_pos (by decide)), ← Nat.pow_add,
        pow_le_iff_lt_digitCount hc]
      omega
    rw [dropDigits_eq_divEven]
    exact hdiv.trans (div_le_divEven _ _)
  have hne : dropDigits c s ≠ 0 := (Nat.lt_of_lt_of_le (Nat.pow_pos (by decide)) hkept).ne'
  have hdigits : p - 1 < digitCount (dropDigits c s) :=
    (pow_le_iff_lt_digitCount hne _).mp hkept
  rw [pow_le_magnitude_iff hne, adjusted]
  omega

/-- The digits that stay do not reach a power of ten above the one that a carry leads to. -/
theorem magnitude_dropDigits_lt {e k : Int} (hk : e + s + p < k) :
    magnitude (dropDigits c s) (e + s) < 10 ^ k := by
  have hle : ((dropDigits c s : Nat) : ℚ) ≤ 10 ^ p := by
    exact_mod_cast dropDigits_le (hcount ▸ lt_pow_digitCount c)
  calc magnitude (dropDigits c s) (e + s)
      ≤ 10 ^ p * 10 ^ (e + s) := mul_le_mul_of_nonneg_right hle (by positivity)
    _ = 10 ^ (e + s + p) := by rw [mul_comm, ← ten_zpow_add]
    _ < 10 ^ k := zpow_lt_zpow_right₀ (by norm_num) hk

end Dropping

/-- There is a carry from half a unit of the last digit below the power of ten. -/
theorem pow_le_magnitude_dropDigits_iff {p : Nat} (hp : 0 < p) (c s : Nat) (e : Int) :
    10 ^ (e + s + p) ≤ magnitude (dropDigits c s) (e + s) ↔
      tippingPoint p (e + s + p) ≤ magnitude c e := by
  have hunit : (0 : ℚ) < 10 ^ e := by positivity
  have hcarry : (10 : ℚ) ^ (e + s + p) ≤ magnitude (dropDigits c s) (e + s) ↔
      10 ^ p ≤ dropDigits c s := by
    rw [ten_zpow_add, magnitude, mul_comm, mul_le_mul_iff_left₀ (by positivity)]
    exact_mod_cast Iff.rfl
  have htip : tippingPoint p (e + s + p) ≤ magnitude c e ↔
      (10 ^ p - 1 / 2) * 10 ^ s ≤ (c : ℚ) := by
    have hshift : e + s + p - p = e + s := by omega
    rw [tippingPoint, hshift, ten_zpow_add, magnitude, mul_comm (10 ^ e), ← mul_assoc,
      mul_le_mul_iff_left₀ hunit]
  have hnat : (10 ^ p - 1 / 2) * 10 ^ s ≤ (c : ℚ) ↔ 2 * 10 ^ (p + s) ≤ 2 * c + 10 ^ s := by
    have hcast : 2 * 10 ^ (p + s) ≤ 2 * c + 10 ^ s ↔
        (2 * 10 ^ (p + s) : ℚ) ≤ 2 * c + 10 ^ s := by exact_mod_cast Iff.rfl
    rw [hcast, pow_add]
    constructor
    · intro h
      linarith
    · intro h
      linarith
  rw [hcarry, htip, hnat, pow_le_dropDigits_iff hp]

theorem fitPrecision_of_le {p c : Nat} (hc : digitCount c ≤ p) (e : Int) :
    fitPrecision p c e = (c, e) := by
  simp [fitPrecision, Nat.sub_eq_zero_of_le hc, Nat.not_lt.mpr hc]

/-- A number that is fitted to a precision reaches a power of ten from its tipping point. -/
theorem pow_le_fitPrecision_iff {p c : Nat} (hp : 0 < p) (hc : c ≠ 0) (e k : Int) :
    10 ^ k ≤ magnitude (fitPrecision p c e).1 (fitPrecision p c e).2 ↔
      tippingPoint p k ≤ magnitude c e := by
  have hbelow := tippingPoint_lt p k
  rcases Nat.lt_or_ge p (digitCount c) with hmany | hfew
  · obtain ⟨s, hs⟩ : ∃ s, digitCount c = p + s := ⟨digitCount c - p, by omega⟩
    have hsub : digitCount c - p = s := by omega
    rw [magnitude_fitPrecision hp e hmany, hsub]
    rcases Int.lt_trichotomy k (e + s + p) with hlow | rfl | hhigh
    · have hreach : 10 ^ k ≤ magnitude c e := by
        rw [pow_le_magnitude_iff hc, adjusted]
        omega
      exact ⟨fun _ => by linarith, fun _ => pow_le_magnitude_dropDigits hs hp hc hlow⟩
    · exact pow_le_magnitude_dropDigits_iff hp c s e
    · have hunder : magnitude c e < 10 ^ (e + s + p) := by
        apply magnitude_lt_pow
        rw [adjusted]
        omega
      have hkept := magnitude_dropDigits_lt hs hhigh
      have htip := pow_le_tippingPoint (p := p) hhigh
      constructor
      · intro h
        linarith
      · intro h
        linarith
  · rw [fitPrecision_of_le hfew]
    constructor
    · intro h
      linarith
    · intro h
      by_contra hnot
      rw [pow_le_magnitude_iff hc, adjusted] at hnot
      have hlt : magnitude c e < tippingPoint p k := lt_tippingPoint hfew (by omega)
      linarith

/-! ### Results in a context -/

variable {ctx : Context}

/-- A number below the normal ones stays there when its last digits are dropped. -/
theorem magnitude_subnormal_le (hp : 0 < ctx.precision) {c : Nat} {e : Int}
    (hsub : adjusted c e < ctx.minExponent) :
    magnitude (dropDigits c (ctx.tiniest - e).toNat) ctx.tiniest ≤ 10 ^ ctx.minExponent := by
  have hunit : (0 : ℚ) < 10 ^ ctx.tiniest := by positivity
  unfold adjusted at hsub
  have htiniest : ctx.minExponent = ctx.tiniest + (ctx.precision - 1 : Nat) := by
    unfold Context.tiniest
    omega
  have hlt : c < 10 ^ (ctx.precision - 1 + (ctx.tiniest - e).toNat) :=
    (lt_pow_digitCount c).trans_le (Nat.pow_le_pow_right (by decide) (by omega))
  have hle : ((dropDigits c (ctx.tiniest - e).toNat : Nat) : ℚ) ≤ 10 ^ (ctx.precision - 1) := by
    exact_mod_cast dropDigits_le hlt
  rw [htiniest, ten_zpow_add, mul_comm (10 ^ ctx.tiniest)]
  exact mul_le_mul_of_nonneg_right hle hunit.le

theorem fitPrecision_ne_zero {p c : Nat} (hp : 0 < p) (hc : c ≠ 0) (e : Int) :
    (fitPrecision p c e).1 ≠ 0 := by
  intro hzero
  have hfit := pow_le_fitPrecision_iff hp hc e (adjusted c e)
  have htip := tippingPoint_lt p (adjusted c e)
  have hreach : 10 ^ adjusted c e ≤ magnitude c e :=
    (pow_le_magnitude_iff hc e (adjusted c e)).mpr (Int.le_refl _)
  have hpos : (0 : ℚ) < 10 ^ adjusted c e := by positivity
  rw [hzero, magnitude_zero] at hfit
  have hle := hfit.mpr (by linarith)
  linarith

/-- A number below `10^m` and a result that is not above it reach no higher power of ten. -/
theorem pow_le_iff_of_le_pow {p : Nat} {m k : Int} {x y : ℚ} (hx : x ≤ 10 ^ m)
    (hy : y < 10 ^ m) (hk : m < k) : 10 ^ k ≤ x ↔ tippingPoint p k ≤ y := by
  have htip := pow_le_tippingPoint (p := p) hk
  have hpow : (10 : ℚ) ^ m < 10 ^ k := zpow_lt_zpow_right₀ (by norm_num) hk
  constructor
  · intro h
    linarith
  · intro h
    linarith

/-- An exact result overflows from the tipping point of the first power of ten that is too large.
Below it the result reaches those powers of ten that are not subnormal from their own tipping
points. -/
theorem round_spec (hp : 0 < ctx.precision) (hrange : ctx.minExponent ≤ ctx.maxExponent)
    (s : Bool) (c : Nat) (e : Int) :
    (tippingPoint ctx.precision (ctx.maxExponent + 1) ≤ magnitude c e ∧
      round ctx s c e = .error .overflow) ∨
    (magnitude c e < tippingPoint ctx.precision (ctx.maxExponent + 1) ∧
      ∃ c' e', round ctx s c e = .ok (.finite s c' e') ∧
        ∀ k, ctx.minExponent < k →
          (10 ^ k ≤ magnitude c' e' ↔ tippingPoint ctx.precision k ≤ magnitude c e)) := by
  have hoverflow := tippingPoint_lt ctx.precision (ctx.maxExponent + 1)
  have hmin : (10 : ℚ) ^ ctx.minExponent ≤ tippingPoint ctx.precision (ctx.maxExponent + 1) :=
    pow_le_tippingPoint (by omega)
  unfold round
  split
  · rename_i hzero
    have hpos : (0 : ℚ) < 10 ^ ctx.minExponent := by positivity
    subst hzero
    refine .inr ⟨?_, 0, _, rfl, fun k hk => pow_le_iff_of_le_pow ?_ ?_ hk⟩
    · rw [magnitude_zero]
      linarith
    · rw [magnitude_zero]
      exact hpos.le
    · rw [magnitude_zero]
      exact hpos
  · rename_i hc
    split
    · rename_i hlarge
      have hreach : 10 ^ (ctx.maxExponent + 1) ≤ magnitude c e := by
        rw [pow_le_magnitude_iff hc]
        omega
      exact .inl ⟨by linarith, rfl⟩
    · split
      · rename_i hsub
        have hlt : magnitude c e < 10 ^ ctx.minExponent := magnitude_lt_pow c e hsub
        refine .inr ⟨by linarith, ?_⟩
        split
        · exact ⟨_, _, rfl, fun k hk =>
            pow_le_iff_of_le_pow (magnitude_subnormal_le hp hsub) hlt hk⟩
        · exact ⟨c, e, rfl, fun k hk => pow_le_iff_of_le_pow hlt.le hlt hk⟩
      · have hfit := pow_le_fitPrecision_iff hp hc e
        have hne : (fitPrecision ctx.precision c e).1 ≠ 0 := fitPrecision_ne_zero hp hc e
        dsimp only
        split
        · rename_i hlarge
          refine .inl ⟨?_, rfl⟩
          rw [← hfit, pow_le_magnitude_iff hne]
          omega
        · rename_i hfits
          refine .inr ⟨?_, _, _, rfl, fun k _ => hfit k⟩
          rw [← not_le, ← hfit, pow_le_magnitude_iff hne]
          omega

/-- A number has a nearest integer that fits the precision unless it has more digits before
the point. -/
theorem toIntegral_spec (s : Bool) (c : Nat) (e : Int) :
    (10 ^ (ctx.precision : Int) ≤ magnitude c e ∧
      toIntegral ctx (.finite s c e) = .error .invalidOperation) ∨
    (magnitude c e < 10 ^ (ctx.precision : Int) ∧
      ∃ n, toIntegral ctx (.finite s c e) = .ok (.finite s n 0) ∧ n ≤ 10 ^ ctx.precision) := by
  simp only [toIntegral]
  split
  · rename_i hzero
    have hpos : (0 : ℚ) < 10 ^ (ctx.precision : Int) := by positivity
    refine .inr ⟨?_, 0, rfl, Nat.zero_le _⟩
    rw [hzero, magnitude_zero]
    exact hpos
  · rename_i hc
    have hiff := pow_le_magnitude_iff hc e ctx.precision
    unfold adjusted at hiff
    split
    · rename_i hlarge
      exact .inl ⟨hiff.mpr (by omega), rfl⟩
    · rename_i hfits
      have hlt : magnitude c e < 10 ^ (ctx.precision : Int) :=
        not_le.mp fun h => absurd (hiff.mp h) (by omega)
      refine .inr ⟨hlt, ?_⟩
      split
      · rename_i hint
        refine ⟨_, rfl, ?_⟩
        have hc' : c ≤ 10 ^ digitCount c := (lt_pow_digitCount c).le
        calc c * 10 ^ e.toNat
            ≤ 10 ^ digitCount c * 10 ^ e.toNat := Nat.mul_le_mul_right _ hc'
          _ = 10 ^ (digitCount c + e.toNat) := (Nat.pow_add _ _ _).symm
          _ ≤ 10 ^ ctx.precision := Nat.pow_le_pow_right (by decide) (by omega)
      · exact ⟨_, rfl, dropDigits_le
          ((lt_pow_digitCount c).trans_le (Nat.pow_le_pow_right (by decide) (by omega)))⟩

end Decimal

end ThermalLabel.Number
