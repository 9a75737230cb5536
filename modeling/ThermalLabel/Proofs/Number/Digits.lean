import Mathlib.Algebra.Group.Nat.Defs
import ThermalLabel.Number.Integer

/-!
# Digits written and read back

The number of digits says between which powers of ten a number lies.  A numeral is read back
digit by digit, so what `digits` writes denotes the number it was written for.
-/
namespace ThermalLabel.Number

theorem digitCount_pos (n : Nat) : 0 < digitCount n :=
  Nat.length_toDigits_pos

theorem digitCount_le_iff {n k : Nat} (hk : 0 < k) : digitCount n ≤ k ↔ n < 10 ^ k :=
  Nat.length_toDigits_le_iff (by decide) hk

theorem lt_pow_digitCount (n : Nat) : n < 10 ^ digitCount n :=
  (digitCount_le_iff (digitCount_pos n)).mp (Nat.le_refl _)

theorem pow_le_iff_lt_digitCount {n : Nat} (hn : n ≠ 0) (k : Nat) :
    10 ^ k ≤ n ↔ k < digitCount n := by
  cases k with
  | zero =>
    have hpos := digitCount_pos n
    omega
  | succ k =>
    have hle : digitCount n ≤ k + 1 ↔ n < 10 ^ (k + 1) := digitCount_le_iff (Nat.succ_pos k)
    omega

theorem writable_iff (n : Int) : writable n = true ↔ n.natAbs < 10 ^ maxDigits := by
  rw [writable, decide_eq_true_iff, digitCount_le_iff (by decide)]

/-- The least number with too many digits. -/
theorem not_writable_pow : writable ((10 ^ maxDigits : Nat) : Int) = false := by
  rw [Bool.eq_false_iff, Ne, writable_iff, Int.natAbs_natCast]
  exact Nat.lt_irrefl _

/-! ### Signs -/

theorem signed_natAbs (n : Int) : signed (decide (n < 0)) n.natAbs = n := by
  unfold signed
  split
  · rename_i hneg
    rw [decide_eq_true_eq] at hneg
    omega
  · rename_i hnonneg
    rw [decide_eq_true_eq] at hnonneg
    omega

theorem natAbs_signed (s : Bool) (n : Nat) : (signed s n).natAbs = n := by
  cases s
  · rfl
  · exact Int.natAbs_neg n

/-! ### Reading digits -/

/-- The value of a digit from `0` to `9`. -/
def charValue (c : Char) : Nat :=
  c.toNat - '0'.toNat

theorem toNat_of_isDigit {c : Char} (h : c.isDigit = true) : 48 ≤ c.toNat ∧ c.toNat ≤ 57 := by
  simpa [Char.isDigit, UInt32.le_iff_toNat_le] using h

theorem isDigit_of_mem_digits {n : Nat} {c : Char} (h : c ∈ digits n) : c.isDigit = true :=
  Nat.isDigit_of_mem_toDigits (by decide) (by decide) h

theorem asciiDigit?_of_isDigit {c : Char} (h : c.isDigit = true) :
    Text.asciiDigit? c = some (charValue c) := by
  have hrange := toNat_of_isDigit h
  have hcode : CodePoint.toNat c = c.toNat := rfl
  simp [Text.asciiDigit?, charValue, hcode, hrange]

/-- Digits are taken up to the first code point that is none. -/
theorem takeDigits_append (ds : List Char) (hds : ∀ c ∈ ds, c.isDigit = true) (rest : Text)
    (hrest : ∀ c ∈ rest.head?, Text.asciiDigit? c = none) :
    Text.takeDigits (Text.ofChars ds ++ rest) = (ds.map charValue, rest) := by
  induction ds with
  | nil =>
    cases rest with
    | nil => rfl
    | cons c rest =>
      have hc : Text.asciiDigit? c = none := hrest c rfl
      simp [Text.ofChars, Text.takeDigits, hc]
  | cons d ds ih =>
    have hd := asciiDigit?_of_isDigit (hds d List.mem_cons_self)
    have htail := ih fun c hc => hds c (List.mem_cons_of_mem d hc)
    change Text.takeDigits (.char d :: (Text.ofChars ds ++ rest)) = _
    simp only [Text.takeDigits, hd, htail, List.map_cons]

/-- Zeros in front count for nothing. -/
theorem ofDigits_replicate_zero_append (k : Nat) (values : List Nat) :
    ofDigits (List.replicate k 0 ++ values) = ofDigits values := by
  induction k with
  | zero => rfl
  | succ k ih => simpa [ofDigits, List.replicate_succ] using ih

/-- The digits of a number denote it. -/
theorem ofDigits_digits (n : Nat) : ofDigits ((digits n).map charValue) = n := by
  have h : Nat.ofDigitChars 10 (Nat.toDigits 10 n) 0 = n :=
    Nat.ofDigitChars_toDigits (by decide) (by decide)
  rw [Nat.ofDigitChars_eq_foldl] at h
  simpa [ofDigits, digits, charValue, List.foldl_map] using h

theorem ofDigits_lt {values : List Nat} (h : ∀ d ∈ values, d < 10) :
    ofDigits values < 10 ^ values.length := by
  have hfold : ∀ (values : List Nat) (n : Nat), (∀ d ∈ values, d < 10) →
      values.foldl (fun n d => 10 * n + d) n < (n + 1) * 10 ^ values.length := by
    intro values
    induction values with
    | nil =>
      intro n _
      simp
    | cons d values ih =>
      intro n hall
      have hd : d < 10 := hall d List.mem_cons_self
      have hrest := ih (10 * n + d) fun x hx => hall x (List.mem_cons_of_mem d hx)
      have hscale : (10 * n + d + 1) * 10 ^ values.length ≤ 10 * (n + 1) * 10 ^ values.length :=
        Nat.mul_le_mul_right _ (by omega)
      have hpow : 10 * (n + 1) * 10 ^ values.length = (n + 1) * 10 ^ (values.length + 1) := by
        rw [Nat.pow_succ, Nat.mul_comm 10 (n + 1), Nat.mul_assoc, Nat.mul_comm 10]
      rw [List.foldl_cons, List.length_cons]
      omega
  have hzero := hfold values 0 h
  rwa [Nat.zero_add, Nat.one_mul] at hzero

/-- There is a first digit. -/
theorem digits_eq_cons (n : Nat) : ∃ d ds, digits n = d :: ds ∧ d.isDigit = true := by
  have hne : digits n ≠ [] := Nat.toDigits_ne_nil
  obtain ⟨d, ds, hds⟩ := List.exists_cons_of_ne_nil hne
  exact ⟨d, ds, hds, isDigit_of_mem_digits (hds ▸ List.mem_cons_self)⟩

/-- Only zero is written with a zero in front. -/
theorem digits_head {n : Nat} (hn : n ≠ 0) : ∃ d ds, digits n = d :: ds ∧ d ≠ '0' := by
  obtain ⟨d, ds, hds, -⟩ := digits_eq_cons n
  refine ⟨d, ds, hds, ?_⟩
  rintro rfl
  have hlarge : 10 ^ ds.length ≤ n := by
    rw [pow_le_iff_lt_digitCount hn, digitCount, hds, List.length_cons]
    exact Nat.lt_succ_self _
  have hsmall : ofDigits (ds.map charValue) < 10 ^ (ds.map charValue).length := by
    apply ofDigits_lt
    intro v hv
    obtain ⟨c, hc, rfl⟩ := List.mem_map.mp hv
    have hdigit : c.isDigit = true :=
      isDigit_of_mem_digits (n := n) (hds ▸ List.mem_cons_of_mem _ hc)
    have hrange := toNat_of_isDigit hdigit
    have hzero : '0'.toNat = 48 := rfl
    unfold charValue
    omega
  have hvalue : ofDigits ((digits n).map charValue) = ofDigits (ds.map charValue) := by
    rw [hds]
    rfl
  rw [ofDigits_digits] at hvalue
  rw [List.length_map] at hsmall
  omega

theorem writable_signed {values : List Nat} (h : ∀ d ∈ values, d < 10)
    (hlength : values.length ≤ maxDigits) (negative : Bool) :
    writable (signed negative (ofDigits values)) = true := by
  have hlt : ofDigits values < 10 ^ maxDigits :=
    Nat.lt_of_lt_of_le (ofDigits_lt h) (Nat.pow_le_pow_right (by decide) hlength)
  rw [writable_iff, natAbs_signed]
  exact hlt

end ThermalLabel.Number
