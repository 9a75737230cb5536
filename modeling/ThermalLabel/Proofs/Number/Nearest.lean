import Mathlib.Algebra.Order.Round
import Mathlib.Tactic.FieldSimp
import Mathlib.Tactic.NormNum
import ThermalLabel.Proofs.Number.Rounding

/-!
# The nearest integer, and rounding twice

Arithmetic in a context rounds an exact number to the last place that the precision leaves, and
from there it can be rounded to an integer.  The integer is the one nearest to the exact number
unless the first rounding ends halfway between two integers and the even one of them lies on the
other side of the exact number.
-/
namespace ThermalLabel.Number

/-- An integer nearest to a number, the even one of two. -/
structure IsNearest (x : ℚ) (n : ℤ) : Prop where
  near : |x - n| ≤ 1 / 2
  even : |x - n| = 1 / 2 → Even n

namespace IsNearest

variable {x : ℚ} {m n : ℤ}

theorem self (n : ℤ) : IsNearest n n where
  near := by norm_num
  even h := by norm_num at h

theorem neg (h : IsNearest x n) : IsNearest (-x) (-n) := by
  have hmirror : |-x - ((-n : ℤ) : ℚ)| = |x - n| := by
    rw [Int.cast_neg, ← abs_neg (x - n)]
    congr 1
    ring
  exact ⟨hmirror ▸ h.near, fun htie => (h.even (hmirror ▸ htie)).neg⟩

theorem le_of_le (h : IsNearest x n) (hx : x ≤ m) : n ≤ m := by
  by_contra hlt
  have hnext : ((m : ℚ) + 1) ≤ n := by exact_mod_cast Int.not_le.mp hlt
  have hnear := abs_le.mp h.near
  linarith

/-- Two integers nearest to one number would be neighbours, and not both even. -/
theorem unique (hm : IsNearest x m) (hn : IsNearest x n) : m = n := by
  wlog hle : m ≤ n generalizing m n
  · exact (this hn hm (Int.le_of_not_le hle)).symm
  by_contra hne
  have hnext : ((m : ℚ) + 1) ≤ n := by exact_mod_cast lt_of_le_of_ne hle hne
  have hmnear := abs_le.mp hm.near
  have hnnear := abs_le.mp hn.near
  have hsucc : ((m + 1 : ℤ) : ℚ) = n := by
    push_cast
    linarith
  have hmtie : |x - m| = 1 / 2 := by
    rw [abs_of_nonneg (by linarith)]
    linarith
  have hntie : |x - n| = 1 / 2 := by
    rw [abs_of_nonpos (by linarith)]
    linarith
  have hneighbour : m + 1 = n := by exact_mod_cast hsucc
  obtain ⟨i, hi⟩ := hm.even hmtie
  obtain ⟨j, hj⟩ := hn.even hntie
  omega

theorem zero (h : |x| < 1 / 2) : IsNearest x 0 := by
  rw [← sub_zero x] at h
  exact ⟨by exact_mod_cast h.le, fun htie => absurd htie (by exact_mod_cast h.ne)⟩

end IsNearest

/-- Half a divisor away from what a quotient rounds to, the remainder is half the divisor. -/
theorem even_divEven_of_tie {a b : Nat} (hb : 0 < b)
    (h : 2 * a = 2 * (divEven a b * b) + b ∨ 2 * (divEven a b * b) = 2 * a + b) :
    divEven a b % 2 = 0 := by
  apply divEven_tie
  have hsplit : b * (a / b) + a % b = a := Nat.div_add_mod a b
  have hrem : a % b < b := Nat.mod_lt a hb
  have hcomm : b * (a / b) = a / b * b := Nat.mul_comm _ _
  by_contra hne
  unfold divEven at h
  dsimp only at h
  split at h
  · omega
  · rw [if_pos (by omega), Nat.add_mul] at h
    omega

theorem isNearest_divEven (a : Nat) {b : Nat} (hb : 0 < b) :
    IsNearest ((a : ℚ) / b) (divEven a b) := by
  have hpos : (0 : ℚ) < b := by exact_mod_cast hb
  have hscaled : |(a : ℚ) / b - (divEven a b : ℤ)| = |(a : ℚ) - divEven a b * b| / b := by
    rw [← abs_of_pos hpos, ← abs_div, abs_of_pos hpos, Int.cast_natCast]
    congr 1
    field_simp
  obtain ⟨hlow, hhigh⟩ := divEven_near a b hb
  have hlow : (2 * a : ℚ) ≤ 2 * (divEven a b * b) + b := by exact_mod_cast hlow
  have hhigh : (2 * (divEven a b * b) : ℚ) ≤ 2 * a + b := by exact_mod_cast hhigh
  constructor
  · rw [hscaled, div_le_iff₀ hpos, abs_le]
    constructor
    · linarith
    · linarith
  · intro htie
    rw [hscaled, div_eq_iff hpos.ne', abs_eq (by positivity)] at htie
    have htwice : (2 * a : ℚ) = 2 * (divEven a b * b) + b ∨
        (2 * (divEven a b * b) : ℚ) = 2 * a + b := by
      rcases htie with habove | hbelow
      · exact .inl (by linarith)
      · exact .inr (by linarith)
    rw [Int.even_coe_nat, Nat.even_iff]
    exact even_divEven_of_tie hb (by exact_mod_cast htwice)

/-- A number as the nearest multiple of `10^u`. -/
def RoundsTo (u : ℤ) (x y : ℚ) : Prop :=
  ∃ k : ℤ, IsNearest (x / 10 ^ u) k ∧ y = k * 10 ^ u

namespace RoundsTo

variable {u : ℤ} {x y : ℚ}

theorem self (u k : ℤ) : RoundsTo u (k * 10 ^ u) (k * 10 ^ u) := by
  refine ⟨k, ?_, rfl⟩
  rw [mul_div_cancel_right₀ _ (by positivity)]
  exact IsNearest.self k

theorem neg (h : RoundsTo u x y) : RoundsTo u (-x) (-y) := by
  obtain ⟨k, hk, rfl⟩ := h
  refine ⟨-k, ?_, by push_cast; ring⟩
  rw [neg_div]
  exact hk.neg

/-- Multiples of the unit are not passed. -/
theorem le_of_le (h : RoundsTo u x y) {k : ℤ} (hx : x ≤ k * 10 ^ u) : y ≤ k * 10 ^ u := by
  obtain ⟨j, hj, rfl⟩ := h
  have hunit : (0 : ℚ) < 10 ^ u := by positivity
  have hle : j ≤ k := hj.le_of_le ((div_le_iff₀ hunit).mpr hx)
  exact mul_le_mul_of_nonneg_right (by exact_mod_cast hle) hunit.le

theorem ge_of_ge (h : RoundsTo u x y) {k : ℤ} (hx : k * 10 ^ u ≤ x) : k * 10 ^ u ≤ y := by
  have hmirror := h.neg.le_of_le (k := -k) (by push_cast; linarith)
  push_cast at hmirror
  linarith

theorem nonneg (h : RoundsTo u x y) (hx : 0 ≤ x) : 0 ≤ y := by
  simpa using h.ge_of_ge (k := 0) (by simpa using hx)

/-- Nor are powers of ten that are multiples of the unit. -/
theorem le_pow_of_le (h : RoundsTo u x y) {k : ℤ} (hu : u ≤ k) (hx : x ≤ 10 ^ k) : y ≤ 10 ^ k := by
  rw [← Decimal.magnitude_one, Decimal.magnitude_of_le hu] at hx ⊢
  exact h.le_of_le hx

theorem pow_le_of_le (h : RoundsTo u x y) {k : ℤ} (hu : u ≤ k) (hx : 10 ^ k ≤ x) : 10 ^ k ≤ y := by
  rw [← Decimal.magnitude_one, Decimal.magnitude_of_le hu] at hx ⊢
  exact h.ge_of_ge hx

theorem eq_of_multiple {k : ℤ} (h : RoundsTo u (k * 10 ^ u) y) : y = k * 10 ^ u :=
  le_antisymm (h.le_of_le le_rfl) (h.ge_of_ge le_rfl)

theorem eq_zero (h : RoundsTo u 0 y) : y = 0 := by
  have hzero : (((0 : ℤ) : ℚ)) * 10 ^ u = 0 := by rw [Int.cast_zero, zero_mul]
  rw [← hzero] at h ⊢
  exact h.eq_of_multiple

theorem abs_error_le (h : RoundsTo u x y) : |x - y| ≤ 10 ^ u / 2 := by
  obtain ⟨k, hk, rfl⟩ := h
  have hunit : (0 : ℚ) < 10 ^ u := by positivity
  have hscaled : x - k * 10 ^ u = (x / 10 ^ u - k) * 10 ^ u := by
    field_simp
  rw [hscaled, abs_mul, abs_of_pos hunit]
  have hnear := mul_le_mul_of_nonneg_right hk.near hunit.le
  linarith

/-- Half integers are multiples of a unit that is a tenth or less. -/
theorem half_eq_multiple (hu : u < 0) (m : ℤ) : ∃ k : ℤ, (m / 2 : ℚ) = k * 10 ^ u := by
  obtain ⟨j, rfl⟩ : ∃ j : ℕ, u = -1 - j := ⟨(-1 - u).toNat, by omega⟩
  refine ⟨m * 5 * 10 ^ j, ?_⟩
  have hsplit : (10 : ℚ) ^ (-1 - j : ℤ) * 10 ^ j = 10 ^ (-1 : ℤ) := by
    rw [← zpow_natCast, ← zpow_add₀ (by norm_num)]
    congr 1
    omega
  push_cast
  rw [mul_assoc, mul_comm (10 ^ j) _, hsplit]
  norm_num
  ring

section Ties

variable (hu : u < 0) (h : RoundsTo u x y)
include hu h

theorem lt_of_lt_half {m : ℤ} (hy : y < m / 2) : x < m / 2 := by
  obtain ⟨k, hk⟩ := half_eq_multiple hu m
  rw [hk] at hy ⊢
  exact not_le.mp fun hle => absurd (h.ge_of_ge hle) (not_le.mpr hy)

theorem half_lt_of_half_lt {m : ℤ} (hy : m / 2 < y) : m / 2 < x := by
  obtain ⟨k, hk⟩ := half_eq_multiple hu m
  rw [hk] at hy ⊢
  exact not_le.mp fun hle => absurd (h.le_of_le hle) (not_le.mpr hy)

theorem sub_half_lt {n : ℤ} (hy : n - 1 / 2 < y) : n - 1 / 2 < x := by
  have hhalf : ((2 * n - 1 : ℤ) : ℚ) / 2 = n - 1 / 2 := by
    push_cast
    ring
  rw [← hhalf] at hy ⊢
  exact h.half_lt_of_half_lt hu hy

theorem lt_add_half {n : ℤ} (hy : y < n + 1 / 2) : x < n + 1 / 2 := by
  have hhalf : ((2 * n + 1 : ℤ) : ℚ) / 2 = n + 1 / 2 := by
    push_cast
    ring
  rw [← hhalf] at hy ⊢
  exact h.lt_of_lt_half hu hy

end Ties

end RoundsTo

/-- A number that was rounded to a tie, and the neighbour of the tie on its other side. -/
def Misled (x y : ℚ) (n : ℤ) : Prop :=
  |y - n| = 1 / 2 ∧ (n < y ∧ y < x ∨ x < y ∧ y < n)

/-- Rounding to a tenth or less and then to an integer is rounding to an integer, but for numbers
that are misled by a tie. -/
theorem RoundsTo.isNearest_iff {u : ℤ} {x y : ℚ} {n : ℤ} (hu : u ≤ 0) (h : RoundsTo u x y)
    (hn : IsNearest y n) : IsNearest x n ↔ ¬ Misled x y n := by
  constructor
  · rintro hx ⟨htie, ⟨hny, hyx⟩ | ⟨hxy, hyn⟩⟩
    · rw [abs_of_pos (by linarith)] at htie
      have hnear := abs_le.mp hx.near
      linarith
    · rw [abs_of_neg (by linarith)] at htie
      have hnear := abs_le.mp hx.near
      linarith
  · intro hmisled
    rcases hu.lt_or_eq with hu | rfl
    · rcases hn.near.lt_or_eq with hinside | htie
      · obtain ⟨hlow, hhigh⟩ := abs_lt.mp hinside
        have hlow := h.sub_half_lt hu (n := n) (by linarith)
        have hhigh := h.lt_add_half hu (n := n) (by linarith)
        have hinside : |x - n| < 1 / 2 := abs_lt.mpr ⟨by linarith, by linarith⟩
        exact ⟨hinside.le, fun heq => absurd heq hinside.ne⟩
      · refine ⟨abs_le.mpr ?_, fun _ => hn.even htie⟩
        rcases (abs_eq (by norm_num)).mp htie with habove | hbelow
        · have hxy : x ≤ y := not_lt.mp fun hyx => hmisled ⟨htie, .inl ⟨by linarith, hyx⟩⟩
          have hlow := h.sub_half_lt hu (n := n) (by linarith)
          exact ⟨by linarith, by linarith⟩
        · have hyx : y ≤ x := not_lt.mp fun hxy => hmisled ⟨htie, .inr ⟨hxy, by linarith⟩⟩
          have hhigh := h.lt_add_half hu (n := n) (by linarith)
          exact ⟨by linarith, by linarith⟩
    · -- A number that was rounded to an integer stays there.
      obtain ⟨k, hk, rfl⟩ := h
      rw [zpow_zero, div_one] at hk
      rw [zpow_zero, mul_one] at hn
      rwa [hn.unique (IsNearest.self k)]

/-- The integer is less than one away, misled or not. -/
theorem RoundsTo.abs_sub_lt_one {u : ℤ} {x y : ℚ} {n : ℤ} (hu : u ≤ 0) (h : RoundsTo u x y)
    (hn : IsNearest y n) : |x - n| < 1 := by
  by_cases hmisled : Misled x y n
  · have hu : u ≤ -1 := by
      have hne : u ≠ 0 := by
        rintro rfl
        obtain ⟨k, -, rfl⟩ := h
        rw [zpow_zero, mul_one] at hn hmisled
        rw [hn.unique (IsNearest.self k)] at hmisled
        norm_num [Misled] at hmisled
      omega
    have htenth : (10 : ℚ) ^ u ≤ 10 ^ (-1 : ℤ) := zpow_le_zpow_right₀ (by norm_num) hu
    calc |x - n| ≤ |x - y| + |y - n| := abs_sub_le x y n
      _ ≤ 10 ^ u / 2 + 1 / 2 := add_le_add h.abs_error_le hn.near
      _ < 1 := by
        norm_num at htenth
        linarith
  · have hnear := ((h.isNearest_iff hu hn).mpr hmisled).near
    linarith

namespace Decimal

theorem isNearest_dropDigits (c s : Nat) (e : Int) :
    IsNearest (magnitude c e / 10 ^ (e + s)) (dropDigits c s) := by
  have hunit : (10 : ℚ) ^ e ≠ 0 := by positivity
  have hquotient : magnitude c e / 10 ^ (e + s) = (c : ℚ) / (10 ^ s : Nat) := by
    rw [magnitude, ten_zpow_add, Nat.cast_pow, mul_comm, mul_div_mul_left _ _ hunit]
    rfl
  rw [hquotient, dropDigits_eq_divEven]
  exact isNearest_divEven c (Nat.pow_pos (by decide))

theorem roundsTo_dropDigits (c s : Nat) (e : Int) :
    RoundsTo (e + s) (magnitude c e) (magnitude (dropDigits c s) (e + s)) :=
  ⟨dropDigits c s, isNearest_dropDigits c s e, by rw [magnitude, Int.cast_natCast]⟩

/-- The place of the last digit that the precision leaves to a number. -/
def Context.lastPlace (ctx : Context) (c : Nat) (e : Int) : Int :=
  max ctx.tiniest (adjusted c e - ctx.precision + 1)

/-- A result is the nearest number with a last digit in the last place. -/
theorem round_roundsTo {ctx : Context} (hp : 0 < ctx.precision) {s : Bool} {c : Nat} {e : Int}
    {d : Decimal} (h : round ctx s c e = .ok d) : ∃ c' e', d = .finite s c' e' ∧
      RoundsTo (ctx.lastPlace c e) (magnitude c e) (magnitude c' e') := by
  have hkept {c : Nat} {e : Int} (hplace : ctx.lastPlace c e ≤ e) :
      RoundsTo (ctx.lastPlace c e) (magnitude c e) (magnitude c e) := by
    rw [magnitude_of_le hplace]
    exact RoundsTo.self _ _
  unfold round at h
  split at h
  · rename_i hzero
    cases h
    refine ⟨_, _, rfl, ?_⟩
    rw [hzero, magnitude_zero, magnitude_zero]
    simpa using RoundsTo.self (ctx.lastPlace 0 e) 0
  · split at h
    · cases h
    · have htiniest : ctx.tiniest = ctx.minExponent - ctx.precision + 1 := rfl
      split at h
      · rename_i hsub
        have hplace : ctx.lastPlace c e = ctx.tiniest := max_eq_left (by omega)
        split at h
        · obtain ⟨n, hn⟩ := Int.le.dest (show e ≤ ctx.tiniest by omega)
          cases h
          refine ⟨_, _, rfl, ?_⟩
          rw [hplace, ← hn, add_sub_cancel_left, Int.toNat_natCast]
          exact roundsTo_dropDigits c n e
        · cases h
          exact ⟨c, e, rfl, hkept (by omega)⟩
      · have hplace : ctx.lastPlace c e = e + digitCount c - ctx.precision := by
          unfold Context.lastPlace adjusted at *
          omega
        dsimp only at h
        split at h
        · cases h
        · cases h
          refine ⟨_, _, rfl, ?_⟩
          rcases Nat.lt_or_ge ctx.precision (digitCount c) with hmany | hfew
          · rw [magnitude_fitPrecision hp e hmany]
            have hshift : ctx.lastPlace c e = e + (digitCount c - ctx.precision : Nat) := by omega
            rw [hshift]
            exact roundsTo_dropDigits c _ e
          · rw [fitPrecision_of_le hfew]
            exact hkept (by omega)

/-- Numbers with few enough digits are not misled: either no digit of them is lost, or they are too
small. -/
theorem isNearest_of_few {ctx : Context} (hp : 0 < ctx.precision) (hmin : ctx.minExponent < 0)
    {c : Nat} {e : Int} {y : ℚ} {n : ℤ}
    (h : RoundsTo (ctx.lastPlace c e) (magnitude c e) y) (hn : IsNearest y n)
    (hfew : digitCount c ≤ ctx.precision) : IsNearest (magnitude c e) n := by
  by_cases hplace : ctx.lastPlace c e ≤ e
  · rw [magnitude_of_le hplace] at h ⊢
    rwa [h.eq_of_multiple] at hn
  · have htiniest : ctx.tiniest = ctx.minExponent - ctx.precision + 1 := rfl
    have hlast : ctx.lastPlace c e = ctx.tiniest ∧ adjusted c e < ctx.minExponent := by
      unfold Context.lastPlace adjusted at *
      omega
    have hx : magnitude c e < 10 ^ ctx.minExponent := magnitude_lt_pow c e hlast.2
    have hpow : (10 : ℚ) ^ ctx.minExponent ≤ 1 / 10 :=
      (zpow_le_zpow_right₀ (by norm_num) (show _ ≤ (-1 : Int) by omega)).trans_eq (by norm_num)
    have hxnonneg : 0 ≤ magnitude c e := magnitude_nonneg c e
    have hy : y ≤ 10 ^ ctx.minExponent := h.le_pow_of_le (by omega) hx.le
    have hynonneg : 0 ≤ y := h.nonneg hxnonneg
    have hzero : IsNearest y 0 := IsNearest.zero (by rw [abs_of_nonneg hynonneg]; linarith)
    rw [hn.unique hzero]
    exact IsNearest.zero (by rw [abs_of_nonneg hxnonneg]; linarith)

/-- The integer of a number is the nearest one. -/
theorem toIntegral_isNearest {ctx : Context} {s : Bool} {c : Nat} {e : Int} {d : Decimal}
    (h : toIntegral ctx (.finite s c e) = .ok d) :
    ∃ n : Nat, d = .finite s n 0 ∧ IsNearest (magnitude c e) n := by
  unfold toIntegral at h
  dsimp only at h
  split at h
  · rename_i hzero
    cases h
    refine ⟨0, rfl, ?_⟩
    rw [hzero, magnitude_zero]
    simpa using IsNearest.self 0
  · split at h
    · cases h
    · split at h
      · rename_i hint
        cases h
        refine ⟨_, rfl, ?_⟩
        rw [magnitude_of_le hint, zpow_zero, mul_one, sub_zero]
        exact IsNearest.self _
      · obtain ⟨n, rfl⟩ : ∃ n : Nat, e = -n := ⟨(-e).toNat, by omega⟩
        cases h
        refine ⟨_, rfl, ?_⟩
        simpa using isNearest_dropDigits c n (-n)

end Decimal

end ThermalLabel.Number
