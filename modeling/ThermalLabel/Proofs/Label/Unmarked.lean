import ThermalLabel.Proofs.Label.Marks
import ThermalLabel.Proofs.Label.Plain

/-!
# Texts without marks

What is plain holds no marks, and escaping a text puts none into it.
-/
namespace ThermalLabel

open Text (isMark Unmarked)

theorem Text.isMark_of_isPlain {c : Char} (h : isPlain c = true) : isMark (.char c) = false := by
  by_cases hcaret : c = '^'
  · subst hcaret
    cases h
  · by_cases htilde : c = '~'
    · subst htilde
      cases h
    · simp [isMark, hcaret, htilde]

theorem Text.Plain.unmarked {s : Text} (h : s.Plain) : s.Unmarked := by
  intro c hc
  obtain ⟨d, rfl, hd⟩ := h c hc
  exact isMark_of_isPlain hd

namespace Value

/-- The values that are written without marks. -/
def Unmarked : Value → Prop
  | .text s => s.Unmarked
  | .integer _ | .member _ | .double _ => True
  | _ => False

theorem unmarked_of_whole? {v : Value} {n : Int} (h : v.whole? = some n) : v.Unmarked := by
  cases v <;> simp_all [whole?, Unmarked]

theorem toText_unmarked {v : Value} (hv : v.Unmarked) {t : Text} (h : v.toText = .ok t) :
    t.Unmarked := by
  have hplain : v.IsPlain := by cases v <;> trivial
  rcases toText_of_isPlain hplain h with rfl | ht
  · exact hv
  · exact ht.unmarked

/-- A truth value is written as a word. -/
theorem toText_unmarked_of_integer? {v : Value} {n : Int} (hv : v.integer? = some n) {t : Text}
    (h : v.toText = .ok t) : t.Unmarked := by
  cases v with
  | integer m => exact toText_unmarked (v := .integer m) trivial h
  | member m => exact toText_unmarked (v := .member m) trivial h
  | flag b => cases b <;> cases h <;> decide
  | _ => cases hv

end Value

theorem Escape.encode_unmarked {s : Text} (h : s.Unmarked) : (encode s).Unmarked := by
  intro c hc
  rcases mem_encode hc with ⟨d, rfl, hd⟩ | hmem
  · exact Text.isMark_of_isPlain hd
  · exact h c hmem

end ThermalLabel
