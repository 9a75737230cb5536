import ThermalLabel.Proofs.Json.Escapes

/-!
# Leaves of JSON, written and read back

An integer is read back when the text behind it does not run on as a number would, and a text is
read back in any case.
-/
namespace ThermalLabel.Json

/-- A value ends before the text: it is empty or goes on with what stands behind a value. -/
def Ends (s : Text) : Prop :=
  ∀ c ∈ s.head?, c = ',' ∨ c = ']' ∨ c = '\x7d'

theorem ends_nil : Ends [] := by
  simp [Ends]

/-- An integer begins with a digit or a sign. -/
theorem integerText_head (n : Int) :
    ∃ d ds, Number.integerText n = d :: ds ∧ (d.isDigit = true ∨ d = '-') := by
  unfold Number.integerText
  split
  · exact ⟨'-', _, rfl, .inr rfl⟩
  · obtain ⟨d, ds, hds, hd⟩ := Number.digits_eq_cons n.natAbs
    exact ⟨d, ds, hds, .inl hd⟩

theorem ne_of_isDigit_or {d : Char} (hd : d.isDigit = true ∨ d = '-') {c : Char}
    (hc : c.isDigit = false) (hminus : c ≠ '-') : CodePoint.char d ≠ .char c := by
  intro heq
  cases heq
  rcases hd with hd | rfl
  · rw [hc] at hd
    cases hd
  · exact hminus rfl

theorem asciiDigit?_of_ends {s : Text} (h : Ends s) :
    ∀ c ∈ s.head?, Text.asciiDigit? c = none := by
  intro c hc
  rcases h c hc with rfl | rfl | rfl <;> rfl

theorem readWhole_digits (n : Nat) {rest : Text} (hrest : Ends rest) :
    readWhole (Text.ofChars (Number.digits n) ++ rest) =
      some ((Number.digits n).map Number.charValue, rest) := by
  rcases Nat.eq_zero_or_pos n with rfl | hpos
  · rfl
  · obtain ⟨d, ds, hds, hd⟩ := Number.digits_head (Nat.ne_of_gt hpos)
    have htake := Number.takeDigits_append (Number.digits n)
      (fun _ => Number.isDigit_of_mem_digits) rest (asciiDigit?_of_ends hrest)
    rw [hds] at htake ⊢
    simp only [Text.ofChars, List.map_cons, List.cons_append] at htake ⊢
    rw [readWhole]
    · rw [htake]
    · exact fun _ h => hd (CodePoint.char.inj (List.cons.inj h).1)

/-- A number without point and exponent is read as an integer. -/
theorem readNumber_digits (negative : Bool) {n : Nat}
    (hn : Number.digitCount n ≤ Number.maxDigits) {rest : Text} (hrest : Ends rest) :
    readNumber negative (Text.ofChars (Number.digits n) ++ rest) =
      some (.integer (Number.signed negative n), rest) := by
  have hfraction : readFraction rest = ([], rest) := by
    rw [readFraction.eq_def]
    split
    · rename_i tail
      have hpoint := hrest _ rfl
      simp at hpoint
    · rfl
  have hexponent : readExponent rest = (none, rest) := by
    cases rest with
    | nil => rfl
    | cons c rest =>
      have hmark : ¬ (c = 'e' ∨ c = 'E') := by
        rcases hrest c rfl with rfl | rfl | rfl <;> decide
      simp only [readExponent, if_neg hmark]
  have hlength : ¬ Number.maxDigits < (Number.digits n).length := Nat.not_lt.mpr hn
  simp [readNumber, readWhole_digits n hrest, hfraction, hexponent, hlength,
    Number.ofDigits_digits]

/-- No word begins with a digit, and none goes on with one after a sign. -/
theorem readWord_digit {c : Char} (hc : c.isDigit = true) (s : Text) :
    readWord (.char c :: s) = none ∧ readWord (.char '-' :: .char c :: s) = none := by
  have hother : ∀ d : Char, d.isDigit = false → d ≠ c := by
    rintro d hd rfl
    rw [hc] at hd
    cases hd
  have hn := hother 'n' (by decide)
  have ht := hother 't' (by decide)
  have hf := hother 'f' (by decide)
  have hnan := hother 'N' (by decide)
  have hi := hother 'I' (by decide)
  have hminus := hother '-' (by decide)
  have hwords : wordValues.map (·.1) = [.char 'n' :: Text.ofString "ull",
      .char 't' :: Text.ofString "rue", .char 'f' :: Text.ofString "alse",
      .char 'N' :: Text.ofString "aN", .char 'I' :: Text.ofString "nfinity",
      .char '-' :: .char 'I' :: Text.ofString "nfinity"] := rfl
  have hnone : ∀ s : Text, (∀ w ∈ wordValues.map (·.1), ¬ w <+: s) → readWord s = none := by
    intro s h
    rw [readWord, Option.map_eq_none_iff, List.find?_eq_none]
    intro entry hentry
    rw [ List.isPrefixOf_iff_prefix]
    exact h entry.1 (List.mem_map_of_mem hentry)
  constructor
  · apply hnone
    simp [hwords, hn, ht, hf, hnan, hi, hminus]
  · apply hnone
    simp [hwords, hi]

theorem readLeaf_integer {n : Int} (hn : Number.writable n = true) {rest : Text}
    (hrest : Ends rest) :
    readLeaf (Text.ofChars (Number.integerText n) ++ rest) = some (.integer n, rest) := by
  have hcount : Number.digitCount n.natAbs ≤ Number.maxDigits := by
    simpa [Number.writable] using hn
  obtain ⟨d, ds, hds, hd⟩ := Number.digits_eq_cons n.natAbs
  have hquote : d ≠ '"' := by
    rintro rfl
    cases hd
  have hminus : d ≠ '-' := by
    rintro rfl
    cases hd
  have hword := readWord_digit hd (Text.ofChars ds ++ rest)
  have hcons : Text.ofChars (Number.digits n.natAbs) ++ rest =
      .char d :: (Text.ofChars ds ++ rest) := by
    rw [hds]
    rfl
  have hsigned := Number.signed_natAbs n
  unfold Number.integerText
  split
  · rename_i hneg
    have hread := readNumber_digits true hcount hrest
    rw [decide_eq_true hneg] at hsigned
    have htext : Text.ofChars ('-' :: Number.digits n.natAbs) ++ rest =
        .char '-' :: .char d :: (Text.ofChars ds ++ rest) := by
      rw [← hcons]
      rfl
    rw [hcons, hsigned] at hread
    rw [htext]
    simp [readLeaf, hword.2, hread]
  · rename_i hpos
    have hread := readNumber_digits false hcount hrest
    rw [decide_eq_false hpos] at hsigned
    rw [hcons, hsigned] at hread
    rw [hcons]
    simp [readLeaf, hword.1, hread, hquote, hminus]

theorem readLeaf_text (s rest : Text) : readLeaf (writeText s ++ rest) = some (.text s, rest) := by
  have hchars := readChars_escaped s rest
  simp [writeText, readLeaf, hchars]

end ThermalLabel.Json
