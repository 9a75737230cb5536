import ThermalLabel.Proofs.Label.Plain
import ThermalLabel.Proofs.Label.Tokens
import ThermalLabel.Proofs.Number.Integer
import ThermalLabel.Proofs.Value.Exact
import ThermalLabel.Proofs.Value.Unbroken

/-!
# Tokens of arbitrary values

A setting is given as a value of any kind.  What equals a member has the token of that member, and
whatever equals none has the token that the table keeps for it; neither depends on the kind of the
value.  Two settings are first tested for equality with one member, which a signaling number does
not bear, and a rounding is written as an integer, which not every value has.
-/
namespace ThermalLabel

open Number (truncate)

/-- A block over the given width, which stands in place of the token of centred texts. -/
def centredBlock (width : Value) : Except Fault Text :=
  width.toText.map fun shown => "^FB" ++ shown ++ ",1,0,C,0"

def Member.token (width : Value) (m : Member) : Except Fault Text :=
  match m.enumeration.tokens[m.number]? with
  | some token => .ok (Text.ofString token)
  | none => centredBlock width

def Member.fontToken (width : Value) (m : Member) : Except Fault Text :=
  (m.token width).map fun letter => "^AO" ++ letter

/-- What is written for a value is the token of the member that it equals, or else the fallback. -/
structure Permissive (e : Enumeration) (token : Member → Except Fault Text) (fallback : Text)
    (v : Value) (answer : Except Fault Text) : Prop where
  member : ∀ m, m.enumeration = e → v.equal (.member m) = .ok true → answer = token m
  other : (∀ m, m.enumeration = e → v.equal (.member m) ≠ .ok true) → answer = .ok fallback

theorem isNumber_of_equal {v : Value} {m : Member} (h : v.equal (.member m) = .ok true) (i : Int) :
    v.isNumber i = ((m.number : Int) == i) := by
  rw [Value.equal_member_iff] at h
  rw [Bool.eq_iff_iff, Value.isNumber_iff, h, Option.some_inj, beq_iff_eq, ← Int.cast_natCast,
    Int.cast_inj]

theorem isNumber_of_no_member {v : Value} {e : Enumeration}
    (h : ∀ m, m.enumeration = e → v.equal (.member m) ≠ .ok true) {i : Nat}
    (hi : i < e.names.length) : v.isNumber i = false := by
  have hother := h ⟨e, i, hi⟩ rfl
  rw [Ne, Value.equal_member_iff] at hother
  rw [Bool.eq_false_iff, Ne, Value.isNumber_iff]
  exact_mod_cast hother

namespace Token

theorem pick_of_no_member {table : List String} {v : Value} (fallback : String)
    (h : ∀ i < table.length, v.isNumber i = false) : pick table fallback v = fallback := by
  have hnone : (table.zipIdx.find? fun entry => v.isNumber entry.2) = none := by
    rw [List.find?_eq_none]
    rintro ⟨token, i⟩ hentry
    have hi : i < table.length := by simpa using List.snd_lt_of_mem_zipIdx hentry
    simp [h i hi]
  rw [pick, hnone]

theorem tokens_length_le (e : Enumeration) : e.tokens.length ≤ e.names.length := by
  cases e <;> decide

theorem pick_of_member {v : Value} {m : Member} (fallback : String)
    (h : v.equal (.member m) = .ok true) (hlt : m.number < m.enumeration.tokens.length)
    (width : Value) :
    .ok (Text.ofString (pick m.enumeration.tokens fallback v)) = m.token width := by
  rw [pick_of_isNumber (isNumber_of_equal h), if_pos (Int.natCast_nonneg _), Int.toNat_natCast,
    Member.token, List.getD, List.getElem?_eq_getElem hlt, Option.getD_some]

theorem pick_of_other {v : Value} {e : Enumeration} (fallback : String)
    (h : ∀ m, m.enumeration = e → v.equal (.member m) ≠ .ok true) :
    pick e.tokens fallback v = fallback :=
  pick_of_no_member fallback fun _ hi =>
    isNumber_of_no_member h (Nat.lt_of_lt_of_le hi (tokens_length_le e))

/-- A table with a token for every member is looked up for every value. -/
theorem pick_permissive (e : Enumeration) (fallback : String) (v width : Value)
    (hcomplete : e.tokens.length = e.names.length) :
    Permissive e (Member.token width) (Text.ofString fallback) v
      (.ok (Text.ofString (pick e.tokens fallback v))) where
  member := by
    rintro m rfl hequal
    exact pick_of_member fallback hequal (hcomplete ▸ m.inRange) width
  other hother := by
    rw [pick_of_other fallback hother]

theorem fontOrientation_permissive (v width : Value) :
    Permissive .orientation (Member.fontToken width) "^AON" v
      (.ok (Text.ofString (fontOrientation v))) := by
  have hletter := pick_permissive .orientation "N" v width rfl
  have hfont : Text.ofString (fontOrientation v) = Text.ofString "^AO" ++
      Text.ofString (pick Enumeration.orientation.tokens "N" v) := Text.ofString_append _ _
  rw [hfont]
  constructor
  · intro m hm hequal
    rw [Member.fontToken, ← hletter.member m hm hequal]
    rfl
  · intro hother
    rw [Except.ok.inj (hletter.other hother)]
    rfl

/-! ### Settings that are compared -/

theorem textPosition_permissive {v : Value} (h : v.isSignaling = false) (width : Value) :
    Permissive .barcodeLabelPosition (Member.token width) "N" v
      ((textPosition v).map Text.ofString) := by
  rw [textPosition_of_not_signaling h]
  exact pick_permissive .barcodeLabelPosition "N" v width rfl

theorem textPosition_of_signaling {v : Value} (h : v.isSignaling = true) :
    textPosition v = .error (.arithmetic .invalidOperation) := by
  rw [textPosition, Value.is, if_pos h]
  rfl

theorem justification_of_not_signaling {v : Value} (h : v.isSignaling = false) (width : Value) :
    justification v width =
      if v.isNumber Member.center.number then centredBlock width
      else .ok (Text.ofString (pick Enumeration.justification.tokens "" v)) := by
  rw [justification, Value.is, h, if_neg (by decide)]
  cases v.isNumber Member.center.number
  · rfl
  · rw [centredBlock]
    cases width.toText <;> rfl

theorem justification_permissive {v : Value} (h : v.isSignaling = false) (width : Value) :
    Permissive .justification (Member.token width) "" v (justification v width) := by
  rw [justification_of_not_signaling h]
  constructor
  · intro m hm hequal
    have hcenter : Member.center.number = 3 := rfl
    have hrange := m.inRange
    have hnames : m.enumeration.names.length = 4 := by rw [hm]; rfl
    have htokens : m.enumeration.tokens.length = 3 := by rw [hm]; rfl
    rw [isNumber_of_equal hequal, hcenter]
    by_cases hm' : m.number = 3
    · have hnone : m.enumeration.tokens[m.number]? = none :=
        List.getElem?_eq_none (by omega)
      rw [if_pos (by simp [hm']), Member.token, hnone]
    · rw [if_neg (by simpa using by omega), ← hm]
      exact pick_of_member "" hequal (by omega) width
  · intro hother
    rw [isNumber_of_no_member hother Member.center.inRange, pick_of_other "" hother]
    rfl

theorem justification_of_signaling {v : Value} (h : v.isSignaling = true) (width : Value) :
    justification v width = .error (.arithmetic .invalidOperation) := by
  rw [justification, Value.is, if_pos h]
  rfl

theorem exists_justification {v width : Value} (h : v.isSignaling = false) (hwidth : width.Short) :
    ∃ t, justification v width = .ok t := by
  obtain ⟨shown, hshown⟩ := Value.toText_of_short hwidth
  rw [justification_of_not_signaling h, centredBlock, hshown]
  split
  · exact ⟨_, rfl⟩
  · exact ⟨_, rfl⟩

/-! ### Roundings -/

theorem roundness_of_number {v : Value} {x : ℚ} (h : v.number? = some x) :
    roundness v = Value.integerText (truncate x) :=
  Value.toInteger_text h

theorem roundness_of_member {v : Value} {m : Member} (hm : m.enumeration = .roundness)
    (h : v.equal (.member m) = .ok true) (width : Value) : roundness v = m.token width := by
  have hall : ∀ i < 9, Value.integerText (i : Nat) =
      .ok (Text.ofString (Enumeration.roundness.tokens.getD i "")) := by decide +kernel
  have hlt : m.number < 9 := by
    have hrange := m.inRange
    rwa [hm] at hrange
  rw [Value.equal_member_iff, ← Int.cast_natCast] at h
  rw [roundness_of_number h, Number.truncate_intCast, hall m.number hlt, Member.token, hm,
    List.getD, List.getElem?_eq_getElem hlt]
  rfl

/-- A rounding is written for the numbers that are short enough and for numerals, and for nothing
else. -/
theorem exists_roundness_iff (v : Value) :
    (∃ t, roundness v = .ok t) ↔
      (∃ x, v.number? = some x ∧ |x| < 10 ^ Number.maxDigits) ∨
        ∃ s n, v = .text s ∧ Number.readInteger s = .ok n := by
  cases hv : v.number? with
  | some x =>
    rw [roundness_of_number hv, Value.integerText_eq_ok_iff, Number.writable_truncate]
    constructor
    · intro h
      exact .inl ⟨x, rfl, h⟩
    · rintro (⟨_, hx, h⟩ | ⟨s, n, rfl, -⟩)
      · cases hx
        exact h
      · cases hv
  | none =>
    constructor
    · rintro ⟨t, ht⟩
      rw [roundness] at ht
      obtain ⟨n, hn, -⟩ := exists_of_bind_eq_ok ht
      obtain ⟨s, rfl, hread⟩ := Value.exists_numeral_of_toInteger hv hn
      exact .inr ⟨s, n, rfl, hread⟩
    · rintro (⟨_, hx, -⟩ | ⟨s, n, rfl, hread⟩)
      · cases hx
      · have hinteger : (Value.text s).toInteger = .ok n := by
          rw [Value.toInteger, readNumeral, hread]
        obtain ⟨t, ht⟩ := (Value.integerText_eq_ok_iff n).mpr (Number.writable_of_readInteger hread)
        exact ⟨t, by rw [roundness, hinteger]; exact ht⟩

end Token

open Token in
/-- Settings of every kind of value have tokens.  Those that are looked up always have one: that of
the member which the value equals, or else that of the table.  The two that are compared have one
likewise, unless the value is a signaling number, which is refused; a centred text needs a width
that can be written.  A rounding has the token of the member it equals, any other number is cut
towards zero and written, and beyond the numbers that are short enough only numerals are written at
all. -/
theorem tokens_permissive (v width : Value) :
    Permissive .color (Member.token width) "B" v (.ok (Text.ofString (color v))) ∧
    Permissive .orientation (Member.token width) "N" v (.ok (Text.ofString (orientation v))) ∧
    Permissive .orientation (Member.fontToken width) "^AON" v
      (.ok (Text.ofString (fontOrientation v))) ∧
    Permissive .barcodeMode (Member.token width) "N" v (.ok (Text.ofString (barcodeMode v))) ∧
    (v.isSignaling = false →
      Permissive .barcodeLabelPosition (Member.token width) "N" v
        ((textPosition v).map Text.ofString) ∧
      Permissive .justification (Member.token width) "" v (justification v width) ∧
      (width.Short → ∃ t, justification v width = .ok t)) ∧
    (v.isSignaling = true →
      textPosition v = .error (.arithmetic .invalidOperation) ∧
      justification v width = .error (.arithmetic .invalidOperation)) ∧
    (∀ m, m.enumeration = .roundness → v.equal (.member m) = .ok true →
      roundness v = m.token width) ∧
    (∀ x, v.number? = some x → roundness v = Value.integerText (truncate x)) ∧
    ((∃ t, roundness v = .ok t) ↔
      (∃ x, v.number? = some x ∧ |x| < 10 ^ Number.maxDigits) ∨
        ∃ s n, v = .text s ∧ Number.readInteger s = .ok n) := by
  refine ⟨pick_permissive .color "B" v width rfl, pick_permissive .orientation "N" v width rfl,
    fontOrientation_permissive v width, pick_permissive .barcodeMode "N" v width rfl, ?_, ?_,
    fun m hm hequal => roundness_of_member hm hequal width, fun x => roundness_of_number,
    exists_roundness_iff v⟩
  · intro h
    exact ⟨textPosition_permissive h width, justification_permissive h width,
      exists_justification h⟩
  · intro h
    exact ⟨textPosition_of_signaling h, justification_of_signaling h width⟩

/-- The decimal `1.0` stands for a turn by 90 degrees; a list, be it of one, is no orientation. -/
theorem tokens_permissive_loose :
    (Except.ok (Text.ofString (Token.orientation (.decimal (.finite false 10 (-1))))) :
      Except Fault Text) = .ok "R" ∧
    (Except.ok (Text.ofString (Token.orientation (.list [.integer 1]))) :
      Except Fault Text) = .ok "N" := by
  have hone := (tokens_permissive (.decimal (.finite false 10 (-1))) .null).2.1
  have hlist := (tokens_permissive (.list [.integer 1]) .null).2.1
  exact ⟨hone.member ⟨.orientation, 1, by decide⟩ rfl (by decide +kernel),
    hlist.other fun m _ h => by cases h⟩

/-- A signaling number is neither a position nor a justification, and what is neither a number nor a
numeral is no rounding. -/
theorem tokens_refused :
    Token.textPosition (.decimal (.nan false true 0)) = .error (.arithmetic .invalidOperation) ∧
    Token.justification (.decimal (.nan false true 0)) (.integer 710) =
      .error (.arithmetic .invalidOperation) ∧
    Token.roundness .null = .error .wrongType ∧
    Token.roundness (.text "x") = .error (.notInteger "x") :=
  ⟨rfl, rfl, rfl, by decide +kernel⟩

end ThermalLabel
