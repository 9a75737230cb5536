import ThermalLabel.Proofs.Number.Numeral

/-!
# Integers written and read back

The text of an integer is a sign and digits, with nothing around them, so reading finds the integer
itself as long as it is short enough to be read.  Whatever is read can be written.
-/
namespace ThermalLabel.Number

theorem digitValue?_of_isDigit {c : Char} (h : c.isDigit = true) :
    Text.digitValue? c = some (charValue c) := by
  have hrange := toNat_of_isDigit h
  have hcode : CodePoint.toNat c = c.toNat := rfl
  have hascii : c.toNat < 128 := by omega
  simp [Text.digitValue?, charValue, hcode, hascii, hrange]

/-- A digit is taken whether or not another one stands before it. -/
theorem scanDigits_cons (afterDigit : Bool) {c : Char} (hc : c.isDigit = true) (rest : Text) :
    scanDigits afterDigit (.char c :: rest) =
      (scanDigits true rest).map fun (ds, tail) => (charValue c :: ds, tail) := by
  have hne : CodePoint.char c ≠ .char '_' := by
    intro heq
    rw [CodePoint.char.inj heq] at hc
    cases hc
  simp only [scanDigits, hne, if_false, digitValue?_of_isDigit hc]

theorem scanDigits_digits (n : Nat) :
    scanDigits false (Text.ofChars (digits n)) = some ((digits n).map charValue, []) := by
  have hmore (ds : List Char) (hds : ∀ c ∈ ds, c.isDigit = true) :
      scanDigits true (Text.ofChars ds) = some (ds.map charValue, []) := by
    induction ds with
    | nil => rfl
    | cons c ds ih =>
      change scanDigits true (.char c :: Text.ofChars ds) = _
      rw [scanDigits_cons true (hds c List.mem_cons_self),
        ih fun d hd => hds d (List.mem_cons_of_mem c hd)]
      rfl
  obtain ⟨d, ds, hds, hd⟩ := digits_eq_cons n
  have hall : ∀ c ∈ d :: ds, c.isDigit = true :=
    fun c hc => isDigit_of_mem_digits (n := n) (hds ▸ hc)
  rw [hds]
  change scanDigits false (.char d :: Text.ofChars ds) = _
  rw [scanDigits_cons false hd, hmore ds fun c hc => hall c (List.mem_cons_of_mem d hc)]
  rfl

theorem integerText_eq (n : Int) :
    integerText n = Decimal.signText (decide (n < 0)) ++ digits n.natAbs := by
  unfold integerText Decimal.signText
  split <;> simp [*]

/-- What is written for an integer is read as that integer. -/
theorem readInteger_integerText {n : Int} (h : writable n = true) :
    readInteger (Text.ofChars (integerText n)) = .ok n := by
  have hblank : ∀ c ∈ Text.ofChars (integerText n), surroundsNumeral c = false := by
    intro c hc
    obtain ⟨d, hd, rfl⟩ := List.mem_map.mp hc
    have hchar : Decimal.isNumeralChar d = true := by
      rw [integerText_eq] at hd
      rcases List.mem_append.mp hd with hsign | hdigit
      · exact Decimal.isNumeralChar_of_mem_signText hsign
      · exact Decimal.isNumeralChar_of_isDigit (isDigit_of_mem_digits hdigit)
    simp [surroundsNumeral, Decimal.isBlank_of_isNumeralChar hchar]
  obtain ⟨d, ds, hds, hd⟩ := digits_eq_cons n.natAbs
  have hsign : takeSign (Text.ofChars (integerText n)) =
      (decide (n < 0), Text.ofChars (digits n.natAbs)) := by
    rw [integerText_eq, hds]
    simpa [Text.ofChars] using Decimal.takeSign_signText (decide (n < 0)) hd (Text.ofChars ds)
  have hlength : ¬ maxDigits < (digits n.natAbs).length := by
    rw [writable, decide_eq_true_eq] at h
    exact Nat.not_lt.mpr h
  rw [readInteger, Decimal.trim_eq_self hblank, hsign]
  dsimp only
  rw [scanDigits_digits]
  simp only [List.length_map, hlength, if_false, List.isEmpty_nil, if_true, ofDigits_digits,
    signed_natAbs]

theorem digitValue?_lt {c : CodePoint} {d : Nat} (h : Text.digitValue? c = some d) : d < 10 := by
  simp only [Text.digitValue?] at h
  split at h
  · split at h
    · cases h
      omega
    · cases h
  · obtain ⟨first, hfirst, rfl⟩ := Option.map_eq_some_iff.mp h
    have hrange := List.find?_some hfirst
    simp only [Bool.and_eq_true, decide_eq_true_eq] at hrange
    omega

theorem scanDigits_lt {afterDigit : Bool} {s rest : Text} {values : List Nat}
    (h : scanDigits afterDigit s = some (values, rest)) : ∀ d ∈ values, d < 10 := by
  fun_induction scanDigits afterDigit s generalizing values with
  | case1 =>
    cases h
    nofun
  | case2 => cases h
  | case3 _ ih => exact ih h
  | case4 => cases h
  | case5 afterDigit c rest' _ d hd ih =>
    obtain ⟨⟨others, tail⟩, htail, heq⟩ := Option.map_eq_some_iff.mp h
    cases heq
    exact List.forall_mem_cons.mpr ⟨digitValue?_lt hd, ih htail⟩
  | case6 =>
    cases h
    nofun
  | case7 => cases h

/-- Reading refuses what has too many digits to be written. -/
theorem writable_of_readInteger {s : Text} {n : Int} (h : readInteger s = .ok n) :
    writable n = true := by
  unfold readInteger at h
  dsimp only at h
  split at h
  · cases h
  · rename_i values rest hscan
    split at h
    · cases h
    · rename_i hlength
      split at h
      · cases h
        apply writable_signed (scanDigits_lt hscan)
        omega
      · cases h

end ThermalLabel.Number
