import ThermalLabel.Proofs.Label.Naming
import ThermalLabel.Proofs.Value.Whole
import ThermalLabel.Token

/-!
# The tokens of choices

Each member of an enumeration has a token, and so has every integer that no member has.  The one
exception is a centred text, which has a block in place of a token.
-/
namespace ThermalLabel

/-- The tokens of the members in the order of their numbers; a centred text has none. -/
def Enumeration.tokens : Enumeration → List String
  | color => ["B", "W"]
  | roundness => ["0", "1", "2", "3", "4", "5", "6", "7", "8"]
  | orientation => ["N", "R", "I", "B"]
  | justification => [",0", ",1", ",2"]
  | barcodeLabelPosition => ["Y", "N"]
  | barcodeMode => ["N", "U", "A", "D"]

/-- The token of an integer that no member has: a rounding is written as it is, a justification
leaves no trace. -/
def Enumeration.strayToken : Enumeration → Int → Except Fault Text
  | color, _ => .ok "B"
  | roundness, n => Value.integerText n
  | justification, _ => .ok ""
  | orientation, _ | barcodeLabelPosition, _ | barcodeMode, _ => .ok "N"

/-- The token that is written for a number: that of the member with this number, or else that of an
integer that no member has. -/
inductive Enumeration.Writes (e : Enumeration) : Int → Text → Prop
  | member {i : Nat} {t : String} (ht : e.tokens[i]? = some t) : Writes e i t
  | stray {n : Int} {t : Text} (hn : Member.ofNumber? e n = none) (ht : e.strayToken n = .ok t) :
      Writes e n t

/-- A choice that was read, and its token. -/
def TokenOf (e : Enumeration) (v : Value) (t : Text) : Prop :=
  ∃ n, v.whole? = some n ∧ e.Writes n t

/-! ### The tables -/

theorem isNumber_of_whole {v : Value} {n : Int} (h : v.whole? = some n) (i : Int) :
    v.isNumber i = (n == i) := by
  cases v with
  | integer m | member m =>
    cases h
    rfl
  | _ => cases h

/-- A value that is an integer picks the token at its own place, if there is one. -/
theorem Token.pick_of_isNumber {v : Value} {n : Int} (h : ∀ i, v.isNumber i = (n == i))
    (table : List String) (fallback : String) :
    Token.pick table fallback v = if 0 ≤ n then table.getD n.toNat fallback else fallback := by
  -- The induction is over what is left of the table, from its place `k` on.
  have hfrom (k : Nat) : ((table.zipIdx k).find? fun entry => v.isNumber entry.2).elim fallback
      Prod.fst = if k ≤ n then table.getD (n - k).toNat fallback else fallback := by
    induction table generalizing k with
    | nil => simp
    | cons token rest ih =>
      rw [List.zipIdx_cons, List.find?_cons, h]
      by_cases hk : n = k
      · simp [hk]
      · rw [beq_false_of_ne hk]
        dsimp only
        rw [ih (k + 1)]
        by_cases hle : (k : Int) < n
        · have hplace : (n - k).toNat = (n - (k + 1 : Nat)).toNat + 1 := by omega
          rw [if_pos (by omega), if_pos (by omega), hplace, List.getD_cons_succ]
        · rw [if_neg (by omega), if_neg (by omega)]
  have hpick : Token.pick table fallback v =
      (table.zipIdx.find? fun entry => v.isNumber entry.2).elim fallback Prod.fst := by
    unfold Token.pick
    cases table.zipIdx.find? fun entry => v.isNumber entry.2 <;> rfl
  simpa using hpick.trans (hfrom 0)

theorem Token.pick_of_whole {v : Value} {n : Int} (h : v.whole? = some n) (table : List String)
    (fallback : String) :
    Token.pick table fallback v = if 0 ≤ n then table.getD n.toNat fallback else fallback :=
  Token.pick_of_isNumber (isNumber_of_whole h) table fallback

theorem pick_of_token (e : Enumeration) (fallback : String) {v : Value} {t : Text}
    (h : TokenOf e v t) (hstray : ∀ n, e.strayToken n = .ok (Text.ofString fallback)) :
    Text.ofString (Token.pick e.tokens fallback v) = t := by
  obtain ⟨n, hwhole, h⟩ := h
  rw [Token.pick_of_whole hwhole]
  cases h with
  | member ht =>
    rw [if_pos (Int.natCast_nonneg _), Int.toNat_natCast, List.getD, ht, Option.getD_some]
  | stray hn ht =>
    have hlength : e.tokens.length ≤ e.names.length := by cases e <;> decide
    rw [hstray] at ht
    cases ht
    split
    · rename_i hpos
      have hbeyond : ¬ n.toNat < e.names.length := fun hlt => by
        rw [Member.ofNumber?, dif_pos ⟨hpos, hlt⟩] at hn
        cases hn
      rw [List.getD, List.getElem?_eq_none (by omega), Option.getD_none]
    · rfl

theorem color_of_token {v : Value} {t : Text} (h : TokenOf .color v t) :
    Text.ofString (Token.color v) = t :=
  pick_of_token .color "B" h fun _ => rfl

theorem orientation_of_token {v : Value} {t : Text} (h : TokenOf .orientation v t) :
    Text.ofString (Token.orientation v) = t :=
  pick_of_token .orientation "N" h fun _ => rfl

theorem barcodeMode_of_token {v : Value} {t : Text} (h : TokenOf .barcodeMode v t) :
    Text.ofString (Token.barcodeMode v) = t :=
  pick_of_token .barcodeMode "N" h fun _ => rfl

theorem justification_of_token {v : Value} {t : Text} (h : TokenOf .justification v t) :
    Text.ofString (Token.pick Token.justifications "" v) = t :=
  pick_of_token .justification "" h fun _ => rfl

theorem roundness_of_whole {v : Value} {n : Int} (h : v.whole? = some n) :
    Token.roundness v = Value.integerText n := by
  cases v with
  | integer m | member m =>
    cases h
    rfl
  | _ => cases h

theorem roundness_of_token {v : Value} {t : Text} (h : TokenOf .roundness v t) :
    Token.roundness v = .ok t := by
  obtain ⟨n, hwhole, h⟩ := h
  rw [roundness_of_whole hwhole]
  cases h with
  | @member i t ht =>
    have hall : ∀ i < 9, ∀ t ∈ Enumeration.roundness.tokens[i]?,
        Value.integerText (i : Nat) = .ok (Text.ofString t) := by decide +kernel
    exact hall i (List.getElem?_eq_some_iff.mp ht).1 t ht
  | stray hn ht => exact ht

/-- The position of a text is looked up in a table of its own. -/
theorem Token.textPosition_of_not_signaling {v : Value} (h : v.isSignaling = false) :
    Token.textPosition v = .ok (Token.pick Enumeration.barcodeLabelPosition.tokens "N" v) := by
  have htop : Member.top.number = 0 := rfl
  have htable : Token.pick Enumeration.barcodeLabelPosition.tokens "N" v =
      if v.isNumber 0 then "Y" else "N" := by
    simp only [Token.pick, Enumeration.tokens, List.zipIdx_cons, List.zipIdx_nil, List.find?_cons,
      List.find?_nil]
    cases v.isNumber ((0 : Nat) : Int) <;> cases v.isNumber ((0 + 1 : Nat) : Int) <;> rfl
  rw [Token.textPosition, Value.is, h, if_neg (by decide), htop, htable]
  rfl

theorem textPosition_of_token {v : Value} {t : Text} (h : TokenOf .barcodeLabelPosition v t) :
    (Token.textPosition v).map Text.ofString = .ok t := by
  obtain ⟨n, hn, -⟩ := id h
  rw [Token.textPosition_of_not_signaling (Value.isSignaling_of_whole? hn)]
  exact congrArg Except.ok (pick_of_token .barcodeLabelPosition "N" h fun _ => rfl)

theorem not_centred_of_token {v : Value} {t : Text} (h : TokenOf .justification v t) :
    v.isNumber Member.center.number = false := by
  have hcenter : Member.center.number = 3 := rfl
  obtain ⟨n, hwhole, h⟩ := h
  rw [isNumber_of_whole hwhole, hcenter, beq_eq_false_iff_ne]
  cases h with
  | @member i t ht =>
    have hlt : i < 3 := (List.getElem?_eq_some_iff.mp ht).1
    omega
  | stray hn ht =>
    rintro rfl
    cases hn

theorem exists_tokenOf (e : Enumeration) : ∃ v t, TokenOf e v t := by
  obtain ⟨t, ht⟩ : ∃ t, e.tokens[0]? = some t := by cases e <;> exact ⟨_, rfl⟩
  exact ⟨.integer (0 : Nat), t, (0 : Nat), rfl, .member ht⟩

theorem tokenOf_left : TokenOf .justification (.member .left) ",0" :=
  ⟨0, rfl, .member rfl⟩

/-- All numbers have a token but that of centred texts and roundings that are too long. -/
theorem exists_writes (e : Enumeration) (n : Int) :
    (∃ t, e.Writes n t) ∨ (e = .justification ∧ n = Member.center.number) ∨
      e = .roundness ∧ ∃ f, Value.integerText n = .error f := by
  cases hn : Member.ofNumber? e n with
  | some m =>
    obtain ⟨rfl, rfl⟩ := Member.ofNumber?_eq_some hn
    rcases Nat.lt_or_ge m.number m.enumeration.tokens.length with hlt | hge
    · exact .inl ⟨_, .member (List.getElem?_eq_getElem hlt)⟩
    · have htables : m.enumeration.names.length = m.enumeration.tokens.length ∨
          m.enumeration = .justification := by
        cases m.enumeration <;> decide
      have hrange := m.inRange
      rcases htables with heq | hj
      · omega
      · have hfour : Enumeration.justification.names.length = 4 := rfl
        have hthree : Enumeration.justification.tokens.length = 3 := rfl
        have hcenter : Member.center.number = 3 := rfl
        rw [hj] at hrange hge
        exact .inr (.inl ⟨hj, by omega⟩)
  | none =>
    cases hstray : e.strayToken n with
    | ok t => exact .inl ⟨t, .stray hn hstray⟩
    | error f =>
      cases e with
      | roundness => exact .inr (.inr ⟨rfl, f, hstray⟩)
      | _ => cases hstray

end ThermalLabel
