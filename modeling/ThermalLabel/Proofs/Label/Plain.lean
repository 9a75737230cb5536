import ThermalLabel.Proofs.Label.Emission
import ThermalLabel.Proofs.Number.Plain

/-!
# Plain parts of commands

Whatever a label holds that is no argument of its own is plain, apart from the letters and marks of
the commands: the numbers, the tokens, and what escaping puts in the place of a character.
-/
namespace ThermalLabel

open Text (Plain)

namespace Value

def text? : Value → Option Text
  | text s => some s
  | _ => none

/-- Numbers and texts, of which only a text may be written with characters that are not plain. -/
def IsPlain : Value → Prop
  | .text _ | .integer _ | .member _ | .double _ => True
  | _ => False

theorem isPlain_of_whole? {v : Value} {n : Int} (h : v.whole? = some n) : v.IsPlain := by
  cases v <;> simp_all [whole?, IsPlain]

theorem integerText_plain {n : Int} {t : Text} (h : integerText n = .ok t) : t.Plain := by
  unfold integerText at h
  split at h
  · cases h
    exact (Number.plain_integerText n).text
  · cases h

theorem toText_of_isPlain {v : Value} (hv : v.IsPlain) {t : Text} (h : v.toText = .ok t) :
    v = .text t ∨ t.Plain := by
  cases v with
  | text s =>
    cases h
    exact Or.inl rfl
  | integer n => exact Or.inr (integerText_plain h)
  | member m =>
    cases h
    exact Or.inr (Text.plain_ofNat m.number)
  | double x =>
    cases h
    exact Or.inr (Number.Double.plain_text x).text
  | _ => exact False.elim hv

end Value

theorem Text.ofString_append (s t : String) : ofString (s ++ t) = ofString s ++ ofString t := by
  simp [ofString, ofChars]

namespace Token

theorem pick_plain {table : List String} {fallback : String}
    (htable : ∀ token ∈ table, Plain (Text.ofString token))
    (hfallback : Plain (Text.ofString fallback)) (v : Value) :
    Plain (Text.ofString (pick table fallback v)) := by
  unfold pick
  split
  · rename_i token i hfind
    exact htable token (List.fst_mem_of_mem_zipIdx (List.mem_of_find?_eq_some hfind))
  · exact hfallback

theorem color_plain (v : Value) : Plain (Text.ofString (color v)) :=
  pick_plain (by decide) (by decide) v

theorem orientation_plain (v : Value) : Plain (Text.ofString (orientation v)) :=
  pick_plain (by decide) (by decide) v

theorem barcodeMode_plain (v : Value) : Plain (Text.ofString (barcodeMode v)) :=
  pick_plain (by decide) (by decide) v

theorem yesNo_plain (v : Value) : Plain (Text.ofString (yesNo v)) := by
  unfold yesNo
  split <;> decide

theorem textPosition_plain {v : Value} {t : Text} (h : Text.ofString <$> textPosition v = .ok t) :
    t.Plain := by
  unfold textPosition at h
  cases hv : v.is .top with
  | error f =>
    rw [hv] at h
    cases h
  | ok above =>
    rw [hv] at h
    cases h
    cases above <;> decide

theorem roundness_plain {v : Value} {t : Text} (h : roundness v = .ok t) : t.Plain := by
  unfold roundness at h
  cases hv : v.toInteger with
  | error f => simp [hv, bind, Except.bind] at h
  | ok n =>
    rw [hv] at h
    exact Value.integerText_plain h

end Token

/-- Escaping adds plain characters only. -/
theorem Escape.mem_encode {s : Text} {c : CodePoint} (h : c ∈ encode s) :
    (∃ d : Char, c = .char d ∧ Text.isPlain d = true) ∨ c ∈ s := by
  have hplain : ∀ code : Text, code.Plain → c ∈ code →
      (∃ d : Char, c = .char d ∧ Text.isPlain d = true) ∨ c ∈ s :=
    fun code hcode hc => Or.inl (hcode c hc)
  obtain ⟨d, hd, hcd⟩ := List.mem_flatMap.mp h
  unfold encodePoint at hcd
  split at hcd
  · exact hplain _ (by decide) hcd
  · split at hcd
    · exact hplain _ (by decide) hcd
    · rw [List.mem_singleton] at hcd
      exact Or.inr (hcd ▸ hd)

/-- Values of these types are numbers or texts. -/
def FieldType.isPlain : FieldType → Bool
  | .integer | .choice _ | .text | .number => true
  | _ => false

theorem Operation.Fits.isPlain {op : Operation} {a : Arguments} (h : op.Fits a) (p : Parameter)
    (hp : (op.fields.any fun f => f.parameter == p && f.type.isPlain) = true) :
    (a p).IsPlain := by
  simp only [List.any_eq_true, Bool.and_eq_true, beq_iff_eq] at hp
  obtain ⟨f, hf, rfl, ht⟩ := hp
  have hholds := h f hf
  cases htype : f.type with
  | integer | choice e =>
    rw [htype] at hholds
    obtain ⟨n, hn⟩ := hholds
    exact Value.isPlain_of_whole? hn
  | text =>
    rw [htype] at hholds
    obtain ⟨s, hs⟩ := hholds
    rw [hs]
    trivial
  | number =>
    rw [htype] at hholds
    rcases hholds with ⟨n, hn⟩ | ⟨x, hx⟩
    · exact Value.isPlain_of_whole? hn
    · rw [hx]
      trivial
  | flag | optionalText => simp [htype, FieldType.isPlain] at ht

end ThermalLabel
