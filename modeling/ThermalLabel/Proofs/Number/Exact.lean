import Mathlib.Algebra.Order.Floor.Ring
import Mathlib.Algebra.Order.Floor.Semifield
import Mathlib.Data.Rat.Floor
import Mathlib.Order.Compare
import ThermalLabel.Number.Double
import ThermalLabel.Proofs.Number.Rounding

/-!
# Exact values

Every finite decimal and every finite double is a rational number.  Decimals are compared as these
numbers are, although powers of ten that do not matter are never written out.
-/
namespace ThermalLabel.Number

theorem compare_congr {α β : Type} [LinearOrder α] [LinearOrder β] {a b : α} {c d : β}
    (hlt : a < b ↔ c < d) (hgt : b < a ↔ d < c) : compare a b = compare c d := by
  rcases lt_trichotomy a b with h | rfl | h
  · rw [compare_lt_iff_lt.mpr h, compare_lt_iff_lt.mpr (hlt.mp h)]
  · have heq : c = d := le_antisymm (not_lt.mp fun h => lt_irrefl a (hgt.mpr h))
      (not_lt.mp fun h => lt_irrefl a (hlt.mpr h))
    rw [compare_eq_iff_eq.mpr rfl, compare_eq_iff_eq.mpr heq]
  · rw [compare_gt_iff_gt.mpr h, compare_gt_iff_gt.mpr (hgt.mp h)]

namespace Decimal

/-- The number `(-1)^negative * coefficient * 10^exponent`. -/
def value (negative : Bool) (coefficient : Nat) (exponent : Int) : ℚ :=
  signed negative coefficient * 10 ^ exponent

def number? : Decimal → Option ℚ
  | .finite s c e => some (value s c e)
  | _ => none

theorem value_zero (s : Bool) (e : Int) : value s 0 e = 0 := by
  cases s <;> simp [value, signed]

theorem value_false (c : Nat) (e : Int) : value false c e = magnitude c e := by
  simp [value, signed, magnitude]

theorem value_true (c : Nat) (e : Int) : value true c e = -magnitude c e := by
  simp [value, signed, magnitude]

theorem abs_value (s : Bool) (c : Nat) (e : Int) : |value s c e| = magnitude c e := by
  have hnonneg := magnitude_nonneg c e
  cases s
  · rw [value_false, abs_of_nonneg hnonneg]
  · rw [value_true, abs_neg, abs_of_nonneg hnonneg]

theorem number?_ofInt (n : Int) : (ofInt n).number? = some (n : ℚ) := by
  rw [ofInt, number?, value, signed_natAbs, zpow_zero, mul_one]

/-! ### Comparisons -/

theorem magnitude_lt_iff_adjusted {c c' : Nat} {e e' : Int} (hc : c ≠ 0) (hc' : c' ≠ 0)
    (hne : adjusted c e ≠ adjusted c' e') :
    magnitude c e < magnitude c' e' ↔ adjusted c e < adjusted c' e' := by
  rcases lt_or_gt_of_ne hne with hlt | hgt
  · have hbelow : magnitude c e < 10 ^ adjusted c' e' := magnitude_lt_pow c e hlt
    have hreach : 10 ^ adjusted c' e' ≤ magnitude c' e' :=
      (pow_le_magnitude_iff hc' e' _).mpr le_rfl
    exact iff_of_true (hbelow.trans_le hreach) hlt
  · have hbelow : magnitude c' e' < 10 ^ adjusted c e := magnitude_lt_pow c' e' hgt
    have hreach : 10 ^ adjusted c e ≤ magnitude c e := (pow_le_magnitude_iff hc e _).mpr le_rfl
    exact iff_of_false (hbelow.trans_le hreach).not_gt hgt.not_gt

/-- Two numbers are aligned at the lower of their exponents. -/
theorem aligned_lt_iff {c c' : Nat} {e e' low : Int} (h : low ≤ e) (h' : low ≤ e') :
    c * 10 ^ (e - low).toNat < c' * 10 ^ (e' - low).toNat ↔ magnitude c e < magnitude c' e' := by
  have hunit : (0 : ℚ) < 10 ^ low := by positivity
  rw [magnitude_of_le h, magnitude_of_le h', mul_lt_mul_iff_left₀ hunit, Int.cast_lt, Int.ofNat_lt]

theorem compareMagnitude_eq (c : Nat) (e : Int) (c' : Nat) (e' : Int) :
    compareMagnitude c e c' e' = compare (magnitude c e) (magnitude c' e') := by
  have hsign {c : Nat} {e : Int} : 0 < magnitude c e ↔ 0 < c := by
    rcases Nat.eq_zero_or_pos c with rfl | hpos
    · simp [magnitude_zero]
    · exact iff_of_true (magnitude_pos hpos.ne' e) hpos
  unfold compareMagnitude
  split
  · rename_i hzero
    rcases hzero with rfl | rfl
    · rw [magnitude_zero]
      exact compare_congr hsign.symm
        (iff_of_false (Nat.not_lt_zero _) (magnitude_nonneg c' e').not_gt)
    · rw [magnitude_zero]
      exact compare_congr (iff_of_false (Nat.not_lt_zero _) (magnitude_nonneg c e).not_gt)
        hsign.symm
  · rename_i hpos
    obtain ⟨hc, hc'⟩ := not_or.mp hpos
    split
    · exact compare_congr (aligned_lt_iff (min_le_left e e') (min_le_right e e'))
        (aligned_lt_iff (min_le_right e e') (min_le_left e e'))
    · rename_i hne
      exact compare_congr (magnitude_lt_iff_adjusted hc hc' hne).symm
        (magnitude_lt_iff_adjusted hc' hc (Ne.symm hne)).symm

/-- A sign counts unless the number is zero. -/
theorem value_of_unsigned {s : Bool} {c : Nat} (h : (s && c != 0) = false) (e : Int) :
    value s c e = magnitude c e := by
  cases s with
  | false => exact value_false c e
  | true =>
    have hzero : c = 0 := by simpa using h
    rw [value_true, hzero, magnitude_zero, neg_zero]

theorem value_of_signed {s : Bool} {c : Nat} (h : (s && c != 0) = true) (e : Int) :
    value s c e = -magnitude c e ∧ value s c e < 0 := by
  obtain ⟨rfl, hc⟩ : s = true ∧ c ≠ 0 := by simpa using h
  rw [value_true]
  exact ⟨rfl, neg_lt_zero.mpr (magnitude_pos hc e)⟩

/-- Decimals stand to each other as the numbers that they are. -/
theorem compare?_of_exact {a b : Decimal} {x y : ℚ} (ha : a.number? = some x)
    (hb : b.number? = some y) : a.compare? b = some (compare x y) := by
  cases a with
  | finite s c e =>
    cases b with
    | finite s' c' e' =>
      cases ha
      cases hb
      have hnonneg := magnitude_nonneg c e
      have hnonneg' := magnitude_nonneg c' e'
      unfold compare?
      dsimp only
      split
      · rename_i hzero
        obtain ⟨rfl, rfl⟩ := hzero
        rw [value_zero, value_zero, compare_eq_iff_eq.mpr rfl]
      · split
        · rename_i hs hs'
          have hlt := (value_of_signed hs' e').2
          rw [compare_gt_iff_gt.mpr (by rw [value_of_unsigned hs]; linarith)]
        · rename_i hs hs'
          have hlt := (value_of_signed hs e).2
          rw [compare_lt_iff_lt.mpr (by rw [value_of_unsigned hs']; linarith)]
        · rename_i hs hs'
          rw [compareMagnitude_eq, value_of_unsigned hs, value_of_unsigned hs']
        · rename_i hs hs'
          rw [compareMagnitude_eq, (value_of_signed hs e).1, (value_of_signed hs' e').1]
          exact congrArg some (compare_congr neg_lt_neg_iff.symm neg_lt_neg_iff.symm)
    | _ => cases hb
  | _ => cases ha

theorem compare?_ofInt_eq_iff (d : Decimal) (n : Int) :
    d.compare? (ofInt n) = some .eq ↔ d.number? = some (n : ℚ) := by
  cases hd : d.number? with
  | some x => rw [compare?_of_exact hd (number?_ofInt n), Option.some_inj, Option.some_inj,
      compare_eq_iff_eq]
  | none =>
    cases d with
    | finite => cases hd
    | infinite s => cases s <;> simp [compare?, ofInt]
    | nan => simp [compare?]

end Decimal

theorem signed_mul (s : Bool) (m n : Nat) : signed s (m * n) = signed s m * n := by
  cases s
  · simp [signed]
  · simp [signed]

def Double.number? : Double → Option ℚ
  | .finite s m e => some (signed s m * 2 ^ e)
  | _ => none

/-- Negative powers of two are written out as powers of five over powers of ten. -/
theorem value_five_pow (s : Bool) (m n : Nat) :
    Decimal.value s (m * 5 ^ n) (-n) = signed s m * 2 ^ (-n : ℤ) := by
  have hten : (10 : ℚ) ^ n = 2 ^ n * 5 ^ n := by
    rw [← mul_pow]
    norm_num
  rw [Decimal.value, signed_mul, zpow_neg, zpow_neg, zpow_natCast, zpow_natCast, hten]
  push_cast
  field_simp

theorem Double.number?_toDecimal (x : Double) : x.toDecimal.number? = x.number? := by
  cases x with
  | finite s m e =>
    rw [toDecimal]
    split
    · obtain ⟨n, rfl⟩ : ∃ n : Nat, e = n := ⟨e.toNat, by omega⟩
      simp [number?, Decimal.number?, Decimal.value, signed_mul]
    · obtain ⟨n, rfl⟩ : ∃ n : Nat, e = -n := ⟨(-e).toNat, by omega⟩
      rw [neg_neg, Int.toNat_natCast]
      exact congrArg some (value_five_pow s m n)
  | _ => rfl

/-! ### Integer parts -/

/-- A number cut towards zero. -/
def truncate (x : ℚ) : ℤ :=
  if 0 ≤ x then ⌊x⌋ else ⌈x⌉

theorem truncate_intCast (n : ℤ) : truncate n = n := by
  simp [truncate]

theorem truncate_neg (x : ℚ) : truncate (-x) = -truncate x := by
  unfold truncate
  rcases lt_trichotomy x 0 with hneg | rfl | hpos
  · rw [if_pos (by linarith), if_neg (by linarith), Int.floor_neg]
  · simp
  · rw [if_neg (by linarith), if_pos hpos.le, Int.ceil_neg]

theorem Decimal.truncate_value (s : Bool) (c : Nat) (e : Int) :
    truncate (value s c e) = signed s ⌊magnitude c e⌋₊ := by
  have hnonneg := magnitude_nonneg c e
  have hfloor : truncate (magnitude c e) = ⌊magnitude c e⌋₊ := by
    rw [truncate, if_pos hnonneg, Int.natCast_floor_eq_floor hnonneg]
  cases s
  · rw [value_false, hfloor]
    rfl
  · rw [value_true, truncate_neg, hfloor]
    rfl

/-- Dropping the digits after the point. -/
theorem Decimal.floor_magnitude (c n : Nat) : ⌊magnitude c (-n)⌋₊ = c / 10 ^ n := by
  have hquotient : magnitude c (-n) = (c : ℚ) / (10 ^ n : Nat) := by
    rw [magnitude, zpow_neg, zpow_natCast, Nat.cast_pow, div_eq_mul_inv]
    rfl
  rw [hquotient, Nat.floor_div_eq_div]

theorem Decimal.magnitude_natCast (c n : Nat) : magnitude c n = (c * 10 ^ n : Nat) := by
  simp [magnitude]

end ThermalLabel.Number
