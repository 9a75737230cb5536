import ThermalLabel.Number.Decimal.Text
import ThermalLabel.Proofs.Number.Digits

/-!
# Decimals written and read back

The text of a finite decimal is made of digits, a point, signs and a mark for the exponent.
Reading takes it apart where writing put it together, and finds the decimal itself.
-/
namespace ThermalLabel.Number.Decimal

/-! ### The characters of a numeral -/

def isNumeralChar (c : Char) : Bool :=
  c.isDigit || c == '.' || c == '-' || c == '+' || c == 'E'

theorem isNumeralChar_of_isDigit {c : Char} (h : c.isDigit = true) : isNumeralChar c = true := by
  simp [isNumeralChar, h]

theorem isNumeralChar_range {c : Char} (h : isNumeralChar c = true) :
    0x20 < c.toNat ∧ c.toNat < 0x5f := by
  have hcases : c.isDigit = true ∨ c = '.' ∨ c = '-' ∨ c = '+' ∨ c = 'E' := by
    simpa [isNumeralChar, or_assoc] using h
  rcases hcases with hd | rfl | rfl | rfl | rfl
  · have hrange := toNat_of_isDigit hd
    omega
  · decide
  · decide
  · decide
  · decide

theorem isBlank_of_isNumeralChar {c : Char} (h : isNumeralChar c = true) :
    Text.isBlank c = false := by
  have hrange := isNumeralChar_range h
  have hcode : CodePoint.toNat (.char c) = c.toNat := rfl
  rw [Text.isBlank, hcode]
  simp [Text.inRanges, Text.blankRanges]
  omega

theorem trim_eq_self {p : CodePoint → Bool} {t : Text} (h : ∀ c ∈ t, p c = false) :
    Text.trim p t = t := by
  have hdrop : ∀ t : Text, (∀ c ∈ t, p c = false) → t.dropWhile p = t := by
    intro t ht
    cases t with
    | nil => rfl
    | cons c t => simp [ht c List.mem_cons_self]
  have hreverse := hdrop t.reverse fun c hc => h c (List.mem_reverse.mp hc)
  rw [Text.trim, hdrop t h, hreverse, List.reverse_reverse]

/-- What matters to a numeral is the whole of its text. -/
theorem plainNumeral_ofChars {cs : List Char} (h : ∀ c ∈ cs, isNumeralChar c = true) :
    plainNumeral (Text.ofChars cs) = some (Text.ofChars cs) := by
  have hstrip : Text.strip (Text.ofChars cs) = Text.ofChars cs := by
    apply trim_eq_self
    intro c hc
    obtain ⟨d, hd, rfl⟩ := List.mem_map.mp hc
    exact isBlank_of_isNumeralChar (h d hd)
  unfold plainNumeral
  rw [hstrip]
  clear hstrip
  induction cs with
  | nil => rfl
  | cons c cs ih =>
    have hrange := isNumeralChar_range (h c List.mem_cons_self)
    have hne : CodePoint.char c ≠ .char '_' := by
      intro heq
      have hcode : c.toNat = '_'.toNat := by rw [CodePoint.char.inj heq]
      have hunderscore : '_'.toNat = 0x5f := rfl
      omega
    have hcode : CodePoint.toNat (.char c) = c.toNat := rfl
    have hascii : c.toNat < 128 := by omega
    have hzero : c.toNat ≠ 0 := by omega
    have htail := ih fun d hd => h d (List.mem_cons_of_mem c hd)
    have hkeep : (CodePoint.char c != .char '_') = true := by simpa using hne
    change ((CodePoint.char c :: Text.ofChars cs).filter _).mapM _ = _
    rw [List.filter_cons_of_pos (p := (· != CodePoint.char '_')) hkeep, List.mapM_cons, htail]
    simp [hcode, hascii, hzero, Text.ofChars]

/-! ### A word or digits -/

theorem takeSign_signText (negative : Bool) {c : Char} (hc : c.isDigit = true) (rest : Text) :
    takeSign (Text.ofChars (signText negative) ++ .char c :: rest) =
      (negative, .char c :: rest) := by
  cases negative with
  | true => rfl
  | false =>
    have hminus : c ≠ '-' := by
      rintro rfl
      exact absurd hc (by decide)
    have hplus : c ≠ '+' := by
      rintro rfl
      exact absurd hc (by decide)
    simp [signText, Text.ofChars, takeSign, hminus, hplus]

/-- Digits have no other case. -/
theorem lowerPoint_of_isDigit {c : Char} (hc : c.isDigit = true) :
    Text.lowerPoint c = [.char c] := by
  have hrange := toNat_of_isDigit hc
  have hcode : CodePoint.toNat c = c.toNat := rfl
  have hfirst : ∀ run ∈ Text.caseRuns, 0x41 ≤ run.first := by decide +kernel
  have hnone : Text.caseRuns.find? (·.holds c.toNat) = none := by
    rw [List.find?_eq_none]
    intro run hrun
    have hbound := hfirst run hrun
    simp only [Text.CaseRun.holds, Bool.and_eq_true, decide_eq_true_eq]
    omega
  have hspecial : c.toNat ≠ 0x130 := by omega
  simp [Text.lowerPoint, hcode, hspecial, hnone]

theorem readPlain_of_digit (negative : Bool) {c : Char} (hc : c.isDigit = true) (rest : Text) :
    readPlain (Text.ofChars (signText negative) ++ .char c :: rest) =
      readFinite negative (.char c :: rest) := by
  have hword : Text.lower (.char c :: rest) = .char c :: Text.lower rest := by
    rw [Text.lower, List.flatMap_cons, lowerPoint_of_isDigit hc]
    rfl
  have hother : ∀ d : Char, d.isDigit = false → CodePoint.char d ≠ .char c := by
    rintro d hd heq
    rw [CodePoint.char.inj heq, hc] at hd
    exact absurd hd (by decide)
  have hi := hother 'i' (by decide)
  have hn := hother 'n' (by decide)
  have hs := hother 's' (by decide)
  have hinf : Text.ofString "inf" = .char 'i' :: Text.ofString "nf" := rfl
  have hinfinity : Text.ofString "infinity" = .char 'i' :: Text.ofString "nfinity" := rfl
  have hnan : Text.ofString "nan" = .char 'n' :: Text.ofString "an" := rfl
  have hsnan : Text.ofString "snan" = .char 's' :: Text.ofString "nan" := rfl
  simp [readPlain, takeSign_signText negative hc, hword, hinf, hinfinity, hnan, hsnan, hi.symm, hn,
    hs]

/-! ### The coefficient and the exponent -/

theorem takeDigits_digits (n : Nat) :
    Text.takeDigits (Text.ofChars (digits n)) = ((digits n).map charValue, []) := by
  have htake := takeDigits_append (digits n) (fun _ => isDigit_of_mem_digits) [] (by simp)
  rwa [List.append_nil] at htake

/-- Digits with a point among them fall into the digits in front and those behind, zeros that
make room for the point included. -/
theorem pointText_parts {ds : List Char} (hds : ∀ c ∈ ds, c.isDigit = true) (hne : ds ≠ [])
    (places : Nat) :
    ∃ whole fraction,
      pointText ds places = whole ++ (if fraction = [] then [] else '.' :: fraction) ∧
      whole ≠ [] ∧ fraction.length = places ∧ (∀ c ∈ whole ++ fraction, c.isDigit = true) ∧
      ofDigits ((whole ++ fraction).map charValue) = ofDigits (ds.map charValue) := by
  have hlen : 0 < ds.length := List.length_pos_iff.mpr hne
  unfold pointText
  split
  · rename_i hzero
    exact ⟨ds, [], by simp, hne, hzero.symm, by simpa using hds, by simp⟩
  · rename_i hplaces
    split
    · rename_i hinside
      have hfraction : ds.drop (ds.length - places) ≠ [] := by
        intro h
        rw [List.drop_eq_nil_iff] at h
        omega
      have hwhole : ds.take (ds.length - places) ≠ [] := by
        intro h
        rcases List.take_eq_nil_iff.mp h with h | h
        · omega
        · exact hne h
      refine ⟨ds.take (ds.length - places), ds.drop (ds.length - places), ?_, hwhole, ?_, ?_, ?_⟩
      · rw [if_neg hfraction]
      · rw [List.length_drop]
        omega
      · rw [List.take_append_drop]
        exact hds
      · rw [List.take_append_drop]
    · rename_i hfront
      refine ⟨['0'], List.replicate (places - ds.length) '0' ++ ds, ?_, by simp, ?_, ?_, ?_⟩
      · simp [hne]
      · rw [List.length_append, List.length_replicate]
        omega
      · intro c hc
        simp only [List.mem_append, List.mem_cons, List.not_mem_nil, or_false,
          List.mem_replicate] at hc
        rcases hc with rfl | ⟨-, rfl⟩ | hc
        · rfl
        · rfl
        · exact hds c hc
      · have hzeros : charValue '0' = 0 := rfl
        rw [List.singleton_append, List.map_cons, List.map_append, List.map_replicate, hzeros,
          ← List.cons_append, ← List.replicate_succ, ofDigits_replicate_zero_append]

/-- A finite decimal, unless it cannot be represented. -/
def finite? (negative : Bool) (coefficient : Nat) (exponent : Int) : Option Decimal :=
  if representable coefficient exponent then some (.finite negative coefficient exponent) else none

/-- Digits in front of a point and behind it are read together, up to the mark of the exponent. -/
theorem readFinite_parts {whole fraction : List Char} (hwhole : whole ≠ [])
    (hdigits : ∀ c ∈ whole ++ fraction, c.isDigit = true) (negative : Bool) {suffix : Text}
    (hsuffix : ∀ c ∈ suffix.head?, c = 'E') {e : Int} (he : readExponent suffix = some e) :
    readFinite negative
        (Text.ofChars (whole ++ (if fraction = [] then [] else '.' :: fraction)) ++ suffix) =
      finite? negative (ofDigits ((whole ++ fraction).map charValue)) (e - fraction.length) := by
  have hstop : ∀ c ∈ suffix.head?, Text.asciiDigit? c = none := by
    intro c hc
    rw [hsuffix c hc]
    rfl
  have htake := takeDigits_append whole (fun c hc => hdigits c (List.mem_append_left _ hc))
  cases fraction with
  | nil =>
    rw [if_pos rfl, List.append_nil, readFinite, htake suffix hstop]
    -- Behind the digits there is no point.
    cases suffix with
    | nil => simp [hwhole, he, finite?]
    | cons c rest =>
      obtain rfl : c = .char 'E' := hsuffix c rfl
      simp [hwhole, he, finite?]
  | cons d fraction =>
    have hbehind := takeDigits_append (d :: fraction)
      (fun c hc => hdigits c (List.mem_append_right _ hc)) suffix hstop
    have htext : Text.ofChars (whole ++ '.' :: d :: fraction) ++ suffix =
        Text.ofChars whole ++ .char '.' :: (Text.ofChars (d :: fraction) ++ suffix) := by
      simp [Text.ofChars]
    have hpoint : Text.asciiDigit? (.char '.') = none := rfl
    rw [if_neg (List.cons_ne_nil d fraction), readFinite, htext, htake _ (by simp [hpoint])]
    simp [hbehind, he, finite?]

/-- A coefficient with a point is read up to the mark of the exponent. -/
theorem readFinite_pointText {ds : List Char} (hds : ∀ c ∈ ds, c.isDigit = true) (hne : ds ≠ [])
    (places : Nat) (negative : Bool) {suffix : Text} (hsuffix : ∀ c ∈ suffix.head?, c = 'E')
    {e : Int} (he : readExponent suffix = some e) :
    readFinite negative (Text.ofChars (pointText ds places) ++ suffix) =
      finite? negative (ofDigits (ds.map charValue)) (e - places) := by
  obtain ⟨whole, fraction, htext, hwhole, rfl, hdigits, hvalue⟩ :=
    pointText_parts hds hne places
  rw [← hvalue, htext]
  exact readFinite_parts hwhole hdigits negative hsuffix he

/-- The exponent is written with its sign. -/
theorem readExponent_mark (n : Int) :
    readExponent (Text.ofChars ('E' :: (if n < 0 then '-' else '+') :: digits n.natAbs)) =
      some n := by
  have htake := takeDigits_digits n.natAbs
  have hvalue := ofDigits_digits n.natAbs
  have hne : (digits n.natAbs).map charValue ≠ [] := by
    simp [digits, Nat.toDigits_ne_nil]
  obtain ⟨d, ds, hds⟩ := List.exists_cons_of_ne_nil hne
  rw [hds] at htake hvalue
  rw [Text.ofChars] at htake
  have hsigned := signed_natAbs n
  rcases Int.lt_or_le n 0 with hneg | hpos
  · rw [decide_eq_true hneg] at hsigned
    simp [readExponent, hneg, Text.ofChars, takeSign, htake, hvalue, hsigned]
  · have hnot : ¬ n < 0 := by omega
    rw [decide_eq_false hnot] at hsigned
    simp [readExponent, hnot, Text.ofChars, takeSign, htake, hvalue, hsigned]

/-! ### The whole numeral -/

theorem isNumeralChar_of_mem_pointText {ds : List Char} (hds : ∀ c ∈ ds, c.isDigit = true)
    (hne : ds ≠ []) (places : Nat) {c : Char} (hc : c ∈ pointText ds places) :
    isNumeralChar c = true := by
  obtain ⟨whole, fraction, htext, -, -, hdigits, -⟩ := pointText_parts hds hne places
  rw [htext, List.mem_append] at hc
  rcases hc with hc | hc
  · exact isNumeralChar_of_isDigit (hdigits c (List.mem_append_left _ hc))
  · split at hc
    · exact absurd hc List.not_mem_nil
    · rcases List.mem_cons.mp hc with rfl | hc
      · rfl
      · exact isNumeralChar_of_isDigit (hdigits c (List.mem_append_right _ hc))

/-- A numeral begins with a digit after its sign. -/
theorem pointText_head {ds : List Char} (hds : ∀ c ∈ ds, c.isDigit = true) (hne : ds ≠ [])
    (places : Nat) : ∃ c rest, pointText ds places = c :: rest ∧ c.isDigit = true := by
  obtain ⟨whole, fraction, htext, hwhole, -, hdigits, -⟩ := pointText_parts hds hne places
  obtain ⟨c, rest, rfl⟩ := List.exists_cons_of_ne_nil hwhole
  exact ⟨c, rest ++ _, htext, hdigits c (by simp)⟩

/-- Both notations are a coefficient with a point and a suffix for the exponent. -/
theorem text_eq_pointText (negative : Bool) (c : Nat) (e : Int) :
    ∃ (places : Nat) (suffix : List Char) (x : Int),
      text (.finite negative c e) = signText negative ++ (pointText (digits c) places ++ suffix) ∧
      (∀ d ∈ (Text.ofChars suffix).head?, d = .char 'E') ∧
      (∀ d ∈ suffix, isNumeralChar d = true) ∧
      readExponent (Text.ofChars suffix) = some x ∧ x - places = e := by
  unfold text
  dsimp only
  split
  · exact ⟨(-e).toNat, [], 0, by simp, by simp [Text.ofChars], by simp, rfl, by omega⟩
  · refine ⟨(digits c).length - 1, _, e + (digits c).length - 1, rfl, ?_, ?_,
      readExponent_mark _, ?_⟩
    · simp [Text.ofChars]
    · intro d hd
      rcases List.mem_cons.mp hd with rfl | hd
      · rfl
      · rcases List.mem_cons.mp hd with rfl | hd
        · split <;> rfl
        · exact isNumeralChar_of_isDigit (isDigit_of_mem_digits hd)
    · have hlen : 0 < (digits c).length := digitCount_pos c
      omega

theorem isNumeralChar_of_mem_signText {negative : Bool} {d : Char} (h : d ∈ signText negative) :
    isNumeralChar d = true := by
  cases negative with
  | true => rcases List.mem_singleton.mp h with rfl; rfl
  | false => exact absurd h List.not_mem_nil

/-- The text of a decimal is read digit by digit. -/
theorem ofText?_finite (negative : Bool) (c : Nat) (e : Int) :
    ofText? (Text.ofChars (text (.finite negative c e))) = finite? negative c e := by
  have hds : ∀ d ∈ digits c, d.isDigit = true := fun _ => isDigit_of_mem_digits
  have hne : digits c ≠ [] := Nat.toDigits_ne_nil
  obtain ⟨places, suffix, x, htext, hsuffix, hchars, hx, he⟩ := text_eq_pointText negative c e
  have hall : ∀ d ∈ text (.finite negative c e), isNumeralChar d = true := by
    intro d hd
    rw [htext, List.mem_append, List.mem_append] at hd
    rcases hd with hd | hd | hd
    · exact isNumeralChar_of_mem_signText hd
    · exact isNumeralChar_of_mem_pointText hds hne places hd
    · exact hchars d hd
  obtain ⟨d, rest, hhead, hd⟩ := pointText_head hds hne places
  have hbody : Text.ofChars (text (.finite negative c e)) = Text.ofChars (signText negative) ++
      .char d :: (Text.ofChars rest ++ Text.ofChars suffix) := by
    rw [htext, hhead]
    simp [Text.ofChars]
  have hfinite : readFinite negative (.char d :: (Text.ofChars rest ++ Text.ofChars suffix)) =
      finite? negative c e := by
    have hread := readFinite_pointText hds hne places negative hsuffix hx
    rw [ofDigits_digits, he, hhead] at hread
    exact hread
  rw [ofText?, plainNumeral_ofChars hall, Option.bind_some, hbody, readPlain_of_digit negative hd,
    hfinite]

/-- A decimal that can be represented is read back from its text. -/
theorem ofText?_text (negative : Bool) {c : Nat} {e : Int} (hrep : representable c e = true) :
    ofText? (Text.ofChars (text (.finite negative c e))) = some (.finite negative c e) := by
  rw [ofText?_finite, finite?, if_pos hrep]

/-! ### What can be read -/

theorem representable_of_readFinite {negative s : Bool} {t : Text} {c : Nat} {e : Int}
    (h : readFinite negative t = some (.finite s c e)) : representable c e = true := by
  unfold readFinite at h
  dsimp only at h
  -- The digits after a point are taken or not, and the same test follows.
  split at h
  all_goals
    split at h
    · cases h
    · split at h
      · cases h
      · split at h
        · rename_i hrep
          cases h
          exact hrep
        · cases h

theorem representable_of_ofText? {t : Text} {s : Bool} {c : Nat} {e : Int}
    (h : ofText? t = some (.finite s c e)) : representable c e = true := by
  have hpayload : ∀ {negative signaling : Bool} {t : Text},
      readPayload negative signaling t ≠ some (.finite s c e) := by
    intro negative signaling t hpayload
    unfold readPayload at hpayload
    split at hpayload <;> cases hpayload
  obtain ⟨plain, -, hread⟩ := Option.bind_eq_some_iff.mp h
  unfold readPlain at hread
  dsimp only at hread
  split at hread
  · cases hread
  · split at hread
    · exact absurd hread hpayload
    · split at hread
      · exact absurd hread hpayload
      · exact representable_of_readFinite hread

end ThermalLabel.Number.Decimal
