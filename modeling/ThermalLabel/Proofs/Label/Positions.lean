import ThermalLabel.Proofs.Label.Emission
import ThermalLabel.Proofs.Value.Unbroken

/-!
# Positions of wrapped texts

A wrapped text ends with the position of a line that it has written, or with the one that it was
given if it has no line.  So the position that it answers can be written again.
-/
namespace ThermalLabel

theorem command_part_of_ok {parts : List Part} {s : Text} (h : command parts = .ok s) {p : Part}
    (hp : p ∈ parts) : ∃ t, p.write = .ok t := by
  induction parts generalizing s with
  | nil => cases hp
  | cons q rest ih =>
    obtain ⟨t, u, ht, hu, -⟩ := command_cons_eq_ok.mp h
    rcases List.mem_cons.mp hp with rfl | hp
    · exact ⟨t, ht⟩
    · exact ih hu hp

namespace Value

/-- A whole value that was written is short. -/
theorem writable_of_toText {v : Value} {n : Int} (hv : v.whole? = some n) {t : Text}
    (h : v.toText = .ok t) : Number.writable n = true := by
  cases v with
  | integer m =>
    cases hv
    change integerText n = .ok t at h
    unfold integerText at h
    split at h
    · assumption
    · cases h
  | member m =>
    cases hv
    have hlength : m.enumeration.names.length ≤ 9 := by cases m.enumeration <;> decide
    have hrange := m.inRange
    exact writable_of_lt_thousand (by omega)
  | _ => cases hv

theorem short_of_writable {v : Value} {n : Int} (hv : v.whole? = some n)
    (h : Number.writable n = true) : v.Short := by
  cases v with
  | integer m =>
    cases hv
    exact short_integer.mpr h
  | member m => exact short_member m
  | _ => cases hv

end Value

theorem textField_position {config : Config} {orientation justification x y : Value} {s t : Text}
    (h : textField config orientation justification x y s = .ok t) :
    ∃ shown, y.toText = .ok shown := by
  obtain ⟨block, -, h⟩ := exists_of_bind_eq_ok h
  obtain ⟨centred, -, h⟩ := exists_of_bind_eq_ok h
  exact command_part_of_ok (p := .value y) h (by simp)

namespace Wrap

variable {write : Value → Text → Except Fault Text} {wrap interval maxY y last : Value}
  {w i lowest n : Int}

/-- A run of lines ends with the position of the last one that was written. -/
theorem place_endingY (hwrite : ∀ y s t, write y s = .ok t → ∃ shown, y.toText = .ok shown)
    (hi : interval.whole? = some i) (hl : maxY.whole? = some lowest) (hy : y.whole? = some n)
    {rest : List (List Word)} (hrest : rest ≠ [])
    (h : (place write interval maxY y rest).outcome = .ok (.endingY last)) : last.Short := by
  induction rest generalizing y n with
  | nil => exact absurd rfl hrest
  | cons line rest ih =>
    have hnext : (Value.integer (n + i)).whole? = some (n + i) := rfl
    unfold place at h
    split at h
    · cases h
    · rename_i s hs
      obtain ⟨shown, hshown⟩ := hwrite y _ s hs
      have hn := Value.writable_of_toText hy hshown
      have hshort := Value.short_of_writable hy hn
      simp only [Emission.cons, Value.add_whole hy hi, Value.exceeds_whole hnext hl] at h
      split at h
      · cases h
        exact hshort
      · rename_i hmore
        split at h
        · cases h
        · -- The position falls back by one interval, to that of the line above.
          simp only [cut, Value.sub_whole hnext hi] at h
          cases h
          rw [Int.add_sub_cancel]
          exact Value.short_integer.mpr hn
        · exact ih hnext (by simpa using hmore) h

theorem text_endingY (hwrite : ∀ y s t, write y s = .ok t → ∃ shown, y.toText = .ok shown)
    (hw : wrap.whole? = some w) (hi : interval.whole? = some i) (hl : maxY.whole? = some lowest)
    (hy : y.whole? = some n) (hshort : y.Short) {s : Text}
    (h : (text write wrap interval maxY y s).outcome = .ok (.endingY last)) : last.Short := by
  unfold text at h
  split at h
  · cases h
    exact hshort
  · simp only [Value.limit_whole hw] at h
    split at h
    · split at h
      · cases h
      · cases h
        exact hshort
    · exact place_endingY hwrite hi hl hy (lines_words_ne_nil _ s) h

end Wrap

/-- The position that a wrapped text answers can be written, if the one it was given can. -/
theorem emit_wrap_endingY {config : Config} {a : Arguments}
    (hfit : Operation.Fits .writeTextAtWithWrap a) (hshort : (a .y).Short) {last : Value}
    (h : (Operation.emit config a .writeTextAtWithWrap).outcome = .ok (.endingY last)) :
    last.Short := by
  simp only [Operation.Fits, Operation.fields, Field.integer, Field.option, List.forall_mem_cons,
    FieldType.Holds] at hfit
  obtain ⟨-, ⟨n, hy⟩, hvalue, ⟨w, hw⟩, ⟨i, hi⟩, ⟨lowest, hl⟩, -⟩ := hfit
  rw [Operation.emit] at h
  rcases hvalue with hnull | ⟨s, hs⟩
  · rw [hnull] at h
    cases h
    exact hshort
  · rw [hs] at h
    exact Wrap.text_endingY (fun y s t => textField_position) hw hi hl hy hshort h

end ThermalLabel
