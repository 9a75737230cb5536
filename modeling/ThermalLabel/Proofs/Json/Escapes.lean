import ThermalLabel.Json.Reader
import ThermalLabel.Json.Writer
import ThermalLabel.Proofs.Number.Digits
import ThermalLabel.Proofs.Text.Order

/-!
# Texts in JSON, written and read back

Every code point is written as itself or as an escape that stands for it, and what is written for
a text is read back as the text, up to the quote that ends it.
-/
namespace ThermalLabel

namespace Json

/-- The number of a control is written with four digits. -/
theorem hexUnit?_hexDigits {n : Nat} (hn : n < 32) :
    ∃ w x y z : CodePoint, Text.ofChars (Text.hexDigits 4 n) = [w, x, y, z] ∧
      hexUnit? w x y z = some n := by
  have hall : ∀ n < 32, Text.ofChars (Text.hexDigits 4 n) =
        [.char '0', .char '0', .char (Nat.digitChar (n / 16)), .char (Nat.digitChar (n % 16))] ∧
      hexUnit? (.char '0') (.char '0') (.char (Nat.digitChar (n / 16)))
        (.char (Nat.digitChar (n % 16))) = some n := by decide
  exact ⟨_, _, _, _, hall n hn⟩

/-- What stands for a code point: a letter after a backslash, its number, or itself. -/
theorem escapePoint_cases (c : CodePoint) :
    (∃ e d : Char, escapePoint c = [.char '\\', .char e] ∧ e ≠ 'u' ∧
      shortEscape? (.char e) = some d ∧ c = .char d) ∨
    (∃ w x y z : CodePoint, escapePoint c = [.char '\\', .char 'u', w, x, y, z] ∧
      hexUnit? w x y z = some c.toNat ∧ c.toNat < 32) ∨
    (escapePoint c = [c] ∧ c ≠ '"' ∧ c ≠ '\\' ∧ 32 ≤ c.toNat) := by
  unfold escapePoint
  split
  · rename_i h
    exact .inl ⟨'"', '"', rfl, by decide, rfl, h⟩
  split
  · rename_i h
    exact .inl ⟨'\\', '\\', rfl, by decide, rfl, h⟩
  split
  · rename_i h
    exact .inl ⟨'n', '\n', rfl, by decide, rfl, h⟩
  split
  · rename_i h
    exact .inl ⟨'r', '\r', rfl, by decide, rfl, h⟩
  split
  · rename_i h
    exact .inl ⟨'t', '\t', rfl, by decide, rfl, h⟩
  split
  · rename_i h
    exact .inl ⟨'b', Char.ofNat 8, rfl, by decide, rfl, by rw [← CodePoint.ofNat_toNat c, h]; rfl⟩
  split
  · rename_i h
    exact .inl ⟨'f', Char.ofNat 12, rfl, by decide, rfl, by rw [← CodePoint.ofNat_toNat c, h]; rfl⟩
  split
  · rename_i h
    obtain ⟨w, x, y, z, hdigits, hunit⟩ := hexUnit?_hexDigits h
    refine .inr (.inl ⟨w, x, y, z, ?_, hunit, h⟩)
    change .char '\\' :: .char 'u' :: Text.ofChars (Text.hexDigits 4 c.toNat) = _
    rw [hdigits]
  · rename_i hquote hbackslash _ _ _ _ _ h
    exact .inr (.inr ⟨rfl, hquote, hbackslash, by omega⟩)

/-- An escape by number at the head of the text is complete. -/
def EscapeComplete (s : Text) : Prop :=
  ∀ w x y z rest, s = .char '\\' :: .char 'u' :: w :: x :: y :: z :: rest →
    (hexUnit? w x y z).isSome = true

/-- A code point that is not escaped stands for itself. -/
theorem readChars_plain {c : CodePoint} (hquote : c ≠ '"') (hbackslash : c ≠ '\\')
    (hhigh : 32 ≤ c.toNat) (s : Text) : readChars (c :: s) = push c (readChars s) := by
  have hplain : ¬ (c = '\\' ∨ c.toNat < 32) := by
    rintro (h | h)
    · exact hbackslash h
    · omega
  rw [readChars, if_neg hplain]
  · exact hquote
  · exact fun _ _ _ _ _ h _ => hbackslash h
  · exact fun _ _ h _ => hbackslash h

theorem readChars_escapePoint (c : CodePoint) {s : Text} (hs : EscapeComplete s) :
    readChars (escapePoint c ++ s) = push c (readChars s) := by
  rcases escapePoint_cases c with
    ⟨e, d, hescape, hu, hshort, rfl⟩ | ⟨w, x, y, z, hescape, hunit, hlow⟩ |
      ⟨hescape, hquote, hbackslash, hhigh⟩
  · rw [hescape]
    simp [readChars, hshort, hu]
  · rw [hescape]
    have hlow' : isHighHalf c.toNat = false := by
      simp only [isHighHalf, Bool.and_eq_false_iff, decide_eq_false_iff_not]
      omega
    change readChars (.char '\\' :: .char 'u' :: w :: x :: y :: z :: s) = _
    rw [readChars]
    simp only [hunit]
    split
    · rename_i a b c' d rest
      obtain ⟨u, hu⟩ := Option.isSome_iff_exists.mp (hs a b c' d rest rfl)
      simp only [hu, hlow', Bool.false_and, Bool.false_eq_true, if_false, CodePoint.ofNat_toNat]
    · rw [CodePoint.ofNat_toNat]
  · rw [hescape]
    exact readChars_plain hquote hbackslash hhigh s

theorem escapeComplete_cons {c : CodePoint} (hc : c ≠ '\\') (s : Text) :
    EscapeComplete (c :: s) := by
  intro w x y z rest h
  exact absurd (List.cons.inj h).1 hc

theorem escapeComplete_escapePoint (c : CodePoint) (s : Text) :
    EscapeComplete (escapePoint c ++ s) := by
  rcases escapePoint_cases c with
    ⟨e, d, hescape, hu, -, -⟩ | ⟨w, x, y, z, hescape, hunit, -⟩ | ⟨hescape, -, hbackslash, -⟩
  · rw [hescape]
    intro w x y z rest h
    simp only [List.cons_append, List.cons.injEq, CodePoint.char.injEq] at h
    exact absurd h.2.1 hu
  · rw [hescape]
    intro w' x' y' z' rest h
    simp only [List.cons_append, List.cons.injEq] at h
    obtain ⟨-, -, rfl, rfl, rfl, rfl, -⟩ := h
    rw [hunit]
    rfl
  · rw [hescape]
    exact escapeComplete_cons hbackslash s

/-- What is written for a text is read back up to the closing quote. -/
theorem readChars_escaped (s rest : Text) :
    readChars (s.flatMap escapePoint ++ .char '"' :: rest) = some (s, rest) := by
  have hquote : EscapeComplete (.char '"' :: rest) := escapeComplete_cons (by decide) rest
  induction s with
  | nil => rfl
  | cons c s ih =>
    have hcomplete : EscapeComplete (s.flatMap escapePoint ++ .char '"' :: rest) := by
      cases s with
      | nil => exact hquote
      | cons d s =>
        rw [List.flatMap_cons, List.append_assoc]
        exact escapeComplete_escapePoint d _
    rw [List.flatMap_cons, List.append_assoc, readChars_escapePoint c hcomplete, ih]
    rfl

/-- Nothing that stands for a code point is a control. -/
theorem le_of_mem_escapePoint {c d : CodePoint} (h : c ∈ escapePoint d) : 32 ≤ c.toNat := by
  have hshort : ∀ e : Char, 32 ≤ e.toNat → ∀ c ∈ Text.ofChars ['\\', e], 32 ≤ c.toNat := by
    intro e he
    exact List.forall_mem_cons.mpr ⟨by decide, List.forall_mem_singleton.mpr he⟩
  have hnumber : ∀ n < 32, (Text.ofChars ('\\' :: 'u' :: Text.hexDigits 4 n)).all
      (fun c => decide (32 ≤ c.toNat)) = true := by decide
  unfold escapePoint at h
  split at h
  · exact hshort '"' (by decide) c h
  split at h
  · exact hshort '\\' (by decide) c h
  split at h
  · exact hshort 'n' (by decide) c h
  split at h
  · exact hshort 'r' (by decide) c h
  split at h
  · exact hshort 't' (by decide) c h
  split at h
  · exact hshort 'b' (by decide) c h
  split at h
  · exact hshort 'f' (by decide) c h
  split at h
  · rename_i hcontrol
    exact of_decide_eq_true (List.all_eq_true.mp (hnumber d.toNat hcontrol) c h)
  · rename_i hplain
    rw [List.mem_singleton.mp h]
    omega

theorem le_of_mem_writeText {c : CodePoint} {s : Text} (h : c ∈ writeText s) : 32 ≤ c.toNat := by
  have hquote : 32 ≤ CodePoint.toNat '"' := by decide
  simp only [writeText, List.cons_append, List.mem_cons, List.mem_append, List.mem_flatMap,
    List.not_mem_nil, or_false] at h
  rcases h with rfl | ⟨d, -, hc⟩ | rfl
  · exact hquote
  · exact le_of_mem_escapePoint hc
  · exact hquote

end Json

end ThermalLabel
