import ThermalLabel.Json.Reader
import ThermalLabel.Proofs.Json.Encodable
import ThermalLabel.Proofs.Label.Naming
import ThermalLabel.Proofs.Log.Extras
import ThermalLabel.Proofs.Number.Digits
import ThermalLabel.Proofs.Value.Unbroken
import ThermalLabel.Proofs.Value.Whole

/-!
# Integers that were read

Reading refuses an integer of too many digits wherever it stands, so whatever was read can be
written.
-/
namespace ThermalLabel

open Value (Short)

namespace Value

theorem short_list_iff {items : List Value} : Short (.list items) ↔ ∀ v ∈ items, Short v := by
  rw [Short, integers]
  induction items with
  | nil => simp [itemIntegers]
  | cons v rest ih =>
    simp only [itemIntegers, List.forall_mem_append, List.forall_mem_cons, ih, Short]

theorem short_object_iff {fields : Fields} :
    Short (.object fields) ↔ ∀ f ∈ fields, Short f.2 := by
  rw [Short, integers]
  induction fields with
  | nil => simp [fieldIntegers]
  | cons f rest ih =>
    simp only [fieldIntegers, List.forall_mem_append, List.forall_mem_cons, ih, Short]

end Value

theorem Text.takeDigits_lt (s : Text) : ∀ d ∈ (takeDigits s).1, d < 10 := by
  fun_induction takeDigits s with
  | case1 => nofun
  | case2 c rest d hd ds tail htail ih =>
    rw [htail] at ih
    have hlt : d < 10 := by
      unfold asciiDigit? at hd
      split at hd
      · cases hd
        omega
      · cases hd
    exact List.forall_mem_cons.mpr ⟨hlt, ih⟩
  | case3 => nofun

namespace Json

theorem readWhole_lt {s rest : Text} {values : List Nat} (h : readWhole s = some (values, rest)) :
    ∀ d ∈ values, d < 10 := by
  unfold readWhole at h
  split at h
  · cases h
    simp
  · split at h
    · cases h
    · rename_i values tail _ hdigits
      cases h
      have hall := Text.takeDigits_lt s
      rwa [hdigits] at hall

theorem short_of_readNumber {negative : Bool} {s rest : Text} {v : Value}
    (h : readNumber negative s = some (v, rest)) : v.Short := by
  obtain ⟨⟨whole, more⟩, hwhole, h⟩ := Option.bind_eq_some_iff.mp h
  dsimp only at h
  split at h
  · split at h
    · cases h
    · rename_i hlength
      cases h
      exact Value.short_integer.mpr
        (Number.writable_signed (readWhole_lt hwhole) (Nat.le_of_not_lt hlength) negative)
  · cases h
    nofun

theorem short_of_readWord {s rest : Text} {v : Value} (h : readWord s = some (v, rest)) :
    v.Short := by
  obtain ⟨⟨word, found⟩, hfind, h⟩ := Option.map_eq_some_iff.mp h
  cases h
  have hall : ∀ entry ∈ wordValues, entry.2.Short := by
    simp [wordValues, Short, Value.integers]
  exact hall _ (List.mem_of_find?_eq_some hfind)

theorem short_of_readLeaf {s rest : Text} {v : Value} (h : readLeaf s = some (v, rest)) :
    v.Short := by
  unfold readLeaf at h
  split at h
  · obtain ⟨⟨cs, more⟩, -, h⟩ := Option.map_eq_some_iff.mp h
    cases h
    exact Value.short_text cs
  · split at h
    · rename_i answer hword
      cases h
      exact short_of_readWord hword
    · split at h
      · exact short_of_readNumber h
      · exact short_of_readNumber h

theorem short_of_orMalformed {s rest : Text} {v : Value}
    (h : orMalformed (readLeaf s) = .ok (v, rest)) : v.Short := by
  cases hleaf : readLeaf s with
  | none =>
    rw [hleaf] at h
    cases h
  | some answer =>
    rw [hleaf] at h
    cases h
    exact short_of_readLeaf hleaf

/-- The calls of the reader with some fuel give values without long integers. -/
structure ReadsShort (fuel : Nat) : Prop where
  value : ∀ levels s v rest, readValue fuel levels s = .ok (v, rest) → v.Short
  items : ∀ levels s items rest, readItems fuel levels s = .ok (items, rest) →
    ∀ v ∈ items, v.Short
  fields : ∀ levels (done : Fields) s fields rest, (∀ f ∈ done, f.2.Short) →
    readFields fuel levels done s = .ok (fields, rest) → ∀ f ∈ fields, f.2.Short

theorem readsShort (fuel : Nat) : ReadsShort fuel := by
  induction fuel with
  | zero => exact ⟨nofun, nofun, nofun⟩
  | succ fuel ih =>
    refine ⟨fun levels s v rest h => ?_, fun levels s items rest h => ?_,
      fun levels done s fields rest hdone h => ?_⟩
    · rw [readValue.eq_def] at h
      dsimp only at h
      split at h
      · cases h
      · cases h
      · split at h
        · cases h
          nofun
        · obtain ⟨⟨items, more⟩, hitems, h⟩ := exists_of_map_eq_ok h
          cases h
          exact Value.short_list_iff.mpr (ih.items _ _ _ _ hitems)
      · split at h
        · cases h
          nofun
        · obtain ⟨⟨fields, more⟩, hfields, h⟩ := exists_of_map_eq_ok h
          cases h
          exact Value.short_object_iff.mpr (ih.fields _ _ _ _ _ (by simp) hfields)
      · exact short_of_orMalformed h
    · rw [readItems] at h
      obtain ⟨⟨v, more⟩, hv, h⟩ := exists_of_bind_eq_ok h
      have hshort := ih.value _ _ _ _ hv
      dsimp only at h
      split at h
      · cases h
        exact List.forall_mem_singleton.mpr hshort
      · obtain ⟨⟨others, after⟩, hothers, h⟩ := exists_of_bind_eq_ok h
        cases h
        exact List.forall_mem_cons.mpr ⟨hshort, ih.items _ _ _ _ hothers⟩
      · cases h
    · rw [readFields] at h
      obtain ⟨⟨key, more⟩, -, h⟩ := exists_of_bind_eq_ok h
      obtain ⟨⟨v, after⟩, hv, h⟩ := exists_of_bind_eq_ok h
      have hset : ∀ f ∈ done.set key v, f.2.Short := by
        intro f hf
        rcases Fields.mem_set hf with hf | rfl
        · exact hdone f hf
        · exact ih.value _ _ _ _ hv
      dsimp only at h
      split at h
      · cases h
        exact hset
      · exact ih.fields _ _ _ _ _ hset h
      · cases h

/-- A value without long integers can be written as JSON. -/
theorem writable_of_short (v : Value) (h : v.Short) : writable v = true := by
  cases v with
  | integer n => exact Value.short_integer.mp h
  | list items =>
    rw [writable, writableItems_iff]
    exact fun v hv => writable_of_short v (Value.short_list_iff.mp h v hv)
  | object fields =>
    rw [writable, writableFields_iff]
    exact fun f hf => writable_of_short f.2 (Value.short_object_iff.mp h f hf)
  | _ => rfl
termination_by sizeOf v
decreasing_by
  · have := List.sizeOf_lt_of_mem hv
    simp_all
    omega
  · have := List.sizeOf_lt_of_mem hf
    cases f
    simp_all
    omega

/-- A value that was read holds no integer that cannot be written. -/
theorem short_of_read {levels : Nat} {s : Text} {v : Value} (h : read levels s = .ok v) :
    v.Short := by
  obtain ⟨⟨found, rest⟩, hvalue, h⟩ := exists_of_bind_eq_ok h
  dsimp only at h
  split at h
  · cases h
    exact (readsShort _).value _ _ _ _ hvalue
  · cases h

end Json

end ThermalLabel
