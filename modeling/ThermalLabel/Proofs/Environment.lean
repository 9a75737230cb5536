import ThermalLabel.Environment
import ThermalLabel.Proofs.Number.Integer
import ThermalLabel.Proofs.Value.Whole

/-!
# Settings from the environment

Whatever the variables spell, the settings of a process are two integers that can be written and a
truth value.  A variable that spells no integer is passed over, but one that spells an integer is
taken at its word, so the settings are out of range if it spells zero or less.
-/
namespace ThermalLabel.Environment

variable {raw : Option Text} {default n : Int}

theorem readInt_pos_iff (h : 0 < default) :
    0 < readInt raw default ↔ ∀ n ∈ givenInt? raw, 0 < n := by
  rw [readInt]
  cases givenInt? raw with
  | none => simpa using h
  | some n => simp

theorem writable_of_givenInt? (h : givenInt? raw = some n) : Number.writable n = true := by
  unfold givenInt? at h
  split at h
  · cases h
  · cases hread : Number.readInteger (Text.strip (raw.getD [])) with
    | error e =>
      rw [hread] at h
      cases h
    | ok m =>
      rw [hread] at h
      cases h
      exact Number.writable_of_readInteger hread

theorem writable_readInt (h : Number.writable default = true) :
    Number.writable (readInt raw default) = true := by
  rw [readInt]
  cases hgiven : givenInt? raw with
  | none => exact h
  | some n => exact writable_of_givenInt? hgiven

/-- Neither the resolution nor the width is spelled as an integer that is not positive. -/
structure Usable (env : Environment) : Prop where
  dpi : ∀ n ∈ givenInt? (env.lookup "ZPLGEN_DPI"), 0 < n
  maxWidth : ∀ n ∈ givenInt? (env.lookup "ZPLGEN_MAX_WIDTH"), 0 < n

theorem usable_iff {env : Environment} : env.Usable ↔ 0 < env.dpi ∧ 0 < env.maxWidth := by
  rw [dpi, maxWidth, readInt_pos_iff (by decide), readInt_pos_iff (by decide)]
  exact ⟨fun h => ⟨h.dpi, h.maxWidth⟩, fun h => ⟨h.1, h.2⟩⟩

instance (env : Environment) : Decidable env.Usable :=
  decidable_of_iff' _ usable_iff

theorem config_valid_iff {env : Environment} : env.config.Valid ↔ env.Usable := by
  rw [usable_iff]
  constructor
  · rintro ⟨dpi, width, quiet, hdpi, hwidth, heq⟩
    simp only [config, Config.mk.injEq, Value.integer.injEq] at heq
    obtain ⟨rfl, rfl, -⟩ := heq
    exact ⟨hdpi, hwidth⟩
  · rintro ⟨hdpi, hwidth⟩
    exact ⟨env.dpi, env.maxWidth, env.suppressSeparator, hdpi, hwidth, rfl⟩

theorem writable_dpi (env : Environment) : Number.writable env.dpi = true :=
  writable_readInt (by decide)

theorem short_maxWidth (env : Environment) : env.config.maxWidth.Short :=
  Value.short_integer.mpr (writable_readInt (by decide))

end ThermalLabel.Environment
