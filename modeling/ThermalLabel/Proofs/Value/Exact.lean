import ThermalLabel.Proofs.Number.Exact
import ThermalLabel.Value.Integer
import ThermalLabel.Value.Order
import ThermalLabel.Value.Text

/-!
# Exact values of numbers of all kinds

Integers, members, truth values, doubles and decimals are all compared as the rational numbers that
they are, and cut towards zero where an integer is needed.
-/
namespace ThermalLabel

open Number (Decimal Double truncate)

namespace Value

/-- The rational number that a value is, for the kinds that are numbers. -/
def number? : Value → Option ℚ
  | double x => x.number?
  | decimal d => d.number?
  | v => v.integer?.map (↑)

theorem number?_of_integer? {v : Value} {n : Int} (h : v.integer? = some n) :
    v.number? = some (n : ℚ) := by
  cases v with
  | flag | integer | member => exact congrArg (Option.map _) h
  | _ => cases h

theorem number?_of_numeric? {v : Value} {d : Decimal} (h : v.numeric? = some d) :
    v.number? = d.number? := by
  cases v with
  | double x =>
    cases h
    exact (Double.number?_toDecimal x).symm
  | decimal => cases h; rfl
  | flag | integer | member =>
    cases h
    exact (Decimal.number?_ofInt _).symm
  | _ => cases h

theorem number?_of_not_numeric {v : Value} (h : v.numeric? = none) : v.number? = none := by
  cases v <;> first | rfl | cases h

theorem isNumber_iff (v : Value) (n : Int) : v.isNumber n = true ↔ v.number? = some (n : ℚ) := by
  unfold isNumber
  split
  · rename_i m hm
    rw [number?_of_integer? hm, beq_iff_eq, Option.some_inj, Int.cast_inj]
  · split
    · rename_i d hd
      rw [number?_of_numeric? hd, beq_iff_eq, Decimal.compare?_ofInt_eq_iff]
    · rename_i hnone
      simp [number?_of_not_numeric hnone]

theorem number?_of_isSignaling {v : Value} (h : v.isSignaling = true) : v.number? = none := by
  cases v with
  | decimal d =>
    cases d with
    | nan => rfl
    | _ => cases h
  | _ => cases h

/-- A value equals a member when it is a number that the member is. -/
theorem equal_member_iff (v : Value) (m : Member) :
    v.equal (.member m) = .ok true ↔ v.number? = some (m.number : ℚ) := by
  have hequal : v.equal (.member m) = (equalNumbers v (.member m)).getD (.ok false) := by
    cases v with
    | double x => cases x <;> rfl
    | _ => rfl
  have hmember : (Value.member m).numeric? = some (.ofInt m.number) := rfl
  rw [hequal, equalNumbers, hmember]
  cases hd : v.numeric? with
  | none => simp [number?_of_not_numeric hd]
  | some d =>
    dsimp only
    split
    · rename_i hsignaling
      simp [number?_of_isSignaling (by simpa [isSignaling] using hsignaling)]
    · have hcompare := Decimal.compare?_ofInt_eq_iff d m.number
      rw [← number?_of_numeric? hd, Int.cast_natCast] at hcompare
      rw [← hcompare]
      simp

end Value

/-! ### Integer parts -/

theorem Number.natAbs_truncate (x : ℚ) : (truncate x).natAbs = ⌊|x|⌋₊ := by
  have hpos {x : ℚ} (h : 0 ≤ x) : (truncate x).natAbs = ⌊|x|⌋₊ := by
    rw [truncate, if_pos h, abs_of_nonneg h, ← Int.natCast_floor_eq_floor h, Int.natAbs_natCast]
  rcases le_total 0 x with h | h
  · exact hpos h
  · have hmirror := hpos (neg_nonneg.mpr h)
    rwa [truncate_neg, Int.natAbs_neg, abs_neg] at hmirror

/-- The integer part is written unless the number itself has too many digits before the point. -/
theorem Number.writable_truncate (x : ℚ) :
    writable (truncate x) = true ↔ |x| < 10 ^ maxDigits := by
  rw [writable_iff, natAbs_truncate, Nat.floor_lt (abs_nonneg x), Nat.cast_pow, Nat.cast_ofNat]

theorem Number.pow_le_of_digits {c n k : Nat} (hc : c ≠ 0) (h : k < digitCount c + n) :
    10 ^ k ≤ c * 10 ^ n := by
  have hcount := digitCount_pos c
  calc 10 ^ k ≤ 10 ^ (digitCount c - 1 + n) := Nat.pow_le_pow_right (by decide) (by omega)
    _ = 10 ^ (digitCount c - 1) * 10 ^ n := Nat.pow_add _ _ _
    _ ≤ c * 10 ^ n := Nat.mul_le_mul_right _ ((pow_le_iff_lt_digitCount hc _).mpr (by omega))

theorem Value.integerText_eq_ok_iff (n : Int) :
    (∃ t, integerText n = .ok t) ↔ Number.writable n = true := by
  unfold integerText
  split
  · rename_i h
    exact iff_of_true ⟨_, rfl⟩ h
  · rename_i h
    exact iff_of_false nofun h

theorem Value.integerText_of_long {n : Int} (h : ¬ Number.writable n = true) :
    integerText n = .error .longInteger :=
  if_neg h

/-- An integer that is not formed because of its length would not be written either. -/
theorem integerPart_text (s : Bool) (c : Nat) (e : Int) :
    integerPart s c e >>= Value.integerText =
      Value.integerText (truncate (Decimal.value s c e)) := by
  rw [Decimal.truncate_value]
  unfold integerPart
  split
  · obtain ⟨n, rfl⟩ : ∃ n : Nat, e = n := ⟨e.toNat, by omega⟩
    rw [Decimal.magnitude_natCast, Nat.floor_natCast]
    split
    · rename_i hlong
      obtain ⟨hlong, hc⟩ := hlong
      have hpow := Number.pow_le_of_digits hc (k := Number.maxDigits) (n := n) (by omega)
      rw [Value.integerText_of_long]
      · rfl
      · rw [Number.writable_iff, Number.natAbs_signed]
        exact Nat.not_lt.mpr hpow
    · split
      · rename_i hzero
        rw [hzero, Nat.zero_mul]
        cases s <;> rfl
      · rfl
  · obtain ⟨n, rfl⟩ : ∃ n : Nat, e = -n := ⟨(-e).toNat, by omega⟩
    rw [Decimal.floor_magnitude, neg_neg, Int.toNat_natCast, Nat.pow_eq]
    split
    · rename_i hfew
      have hlt : c < 10 ^ n := (Number.lt_pow_digitCount c).trans_le
        (Nat.pow_le_pow_right (by decide) (by omega))
      rw [Nat.div_eq_of_lt hlt]
      cases s <;> rfl
    · rfl

theorem decimalToInteger_text {d : Decimal} {x : ℚ} (h : d.number? = some x) :
    decimalToInteger d >>= Value.integerText = Value.integerText (truncate x) := by
  cases d with
  | finite s c e =>
    cases h
    exact integerPart_text s c e
  | _ => cases h

namespace Value

/-- A number is cut towards zero and written as an integer. -/
theorem toInteger_text {v : Value} {x : ℚ} (h : v.number? = some x) :
    v.toInteger >>= integerText = integerText (truncate x) := by
  have hinteger {n : Int} (hn : some (n : ℚ) = some x) :
      integerText n = integerText (truncate x) := by
    rw [← Option.some.inj hn, Number.truncate_intCast]
  cases v with
  | double x =>
    cases x with
    | finite s m e =>
      rw [number?, ← Double.number?_toDecimal] at h
      exact decimalToInteger_text h
    | _ => cases h
  | decimal d => exact decimalToInteger_text h
  | flag | integer | member => exact hinteger h
  | _ => cases h

/-- Of the other values only numerals have an integer. -/
theorem exists_numeral_of_toInteger {v : Value} {n : Int} (h : v.number? = none)
    (hn : v.toInteger = .ok n) : ∃ s, v = .text s ∧ Number.readInteger s = .ok n := by
  cases v with
  | text s =>
    refine ⟨s, rfl, ?_⟩
    unfold toInteger readNumeral at hn
    dsimp only at hn
    split at hn
    · rename_i m hread
      cases hn
      exact hread
    · cases hn
    · cases hn
  | double x =>
    cases x with
    | finite => cases h
    | _ => cases hn
  | decimal d =>
    cases d with
    | finite => cases h
    | _ => cases hn
  | null | list | object => cases hn
  | _ => cases h

end Value

end ThermalLabel
