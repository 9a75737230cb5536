import ThermalLabel.Proofs.Script.Refusal

/-!
# Settings of a script

A block of settings is admitted if it gives no unknown setting, positive integers for the
resolution and the width, and a truth value for the separator.  Valid defaults fill in what is
left out, so reading the block fails for nothing but the block itself.
-/
namespace ThermalLabel.Script

def isPositiveWhole (v : Value) : Bool :=
  v.whole?.any fun n => 0 < n

/-- What a script may give for each setting, in the order of the checks. -/
def settingChecks : List (Text × (Value → Bool)) :=
  [("dpi", isPositiveWhole), ("max_width", isPositiveWhole), ("suppress_separator", isFlag)]

structure AdmittedSettings (settings : Fields) : Prop where
  known : ∀ entry ∈ settings, entry.1 ∈ settingNames
  valid : ∀ check ∈ settingChecks, ∀ v ∈ settings.get? check.1, check.2 v = true

def wrongSetting? (settings : Fields) (check : Text × (Value → Bool)) : Option Value :=
  (settings.get? check.1).filter fun v => !check.2 v

/-- The value that is shown when a block of settings is refused. -/
def refusedSetting? (settings : Fields) : Option Value :=
  if ∀ entry ∈ settings, entry.1 ∈ settingNames then
    settingChecks.findSome? (wrongSetting? settings)
  else none

/-- The settings that a block gives; no block gives none. -/
def settingsOf : Value → Fields
  | .object settings => settings
  | _ => []

theorem admittedSettings_iff {settings : Fields} :
    AdmittedSettings settings ↔ (∀ entry ∈ settings, entry.1 ∈ settingNames) ∧
      settingChecks.findSome? (wrongSetting? settings) = none := by
  have hnone : settingChecks.findSome? (wrongSetting? settings) = none ↔
      ∀ check ∈ settingChecks, ∀ v ∈ settings.get? check.1, check.2 v = true := by
    rw [List.findSome?_eq_none_iff]
    refine forall₂_congr fun check _ => ?_
    rw [wrongSetting?, Option.filter_eq_none_iff]
    simp
  rw [hnone]
  exact ⟨fun h => ⟨h.known, h.valid⟩, fun h => ⟨h.1, h.2⟩⟩

instance (settings : Fields) : Decidable (AdmittedSettings settings) :=
  decidable_of_iff' _ admittedSettings_iff

theorem unknownNames_eq_nil_iff {settings : Fields} :
    unknownNames settings = [] ↔ ∀ entry ∈ settings, entry.1 ∈ settingNames := by
  rw [unknownNames, ← List.length_eq_zero_iff, List.length_mergeSort, List.length_eq_zero_iff,
    List.filter_eq_nil_iff]
  simp

/-- A missing block counts as an empty one. -/
theorem readConfig_eq {block : Value}
    (hblock : block = .null ∨ ∃ settings, block = .object settings) (defaults : Config) :
    readConfig block defaults = match unknownNames (settingsOf block) with
      | [] => checkConfig (override (settingsOf block) defaults)
      | names => refuse (.unknownSettings names) := by
  have hnone : unknownNames [] = [] := unknownNames_eq_nil_iff.mpr (by simp)
  rcases hblock with rfl | ⟨settings, rfl⟩
  · rw [settingsOf, hnone]
    · rfl
    · simp
  · cases settings with
    | nil => rw [settingsOf, hnone]; rfl
    | cons entry rest => rfl

theorem isPositive_eq (v : Value) : isPositive v = isPositiveWhole v := by
  cases v <;> simp [isPositive, isInteger, isPositiveWhole, Value.whole?, Value.integer?]

/-- What a check of one setting gives, whether or not the block has the setting. -/
def Checks (settings : Fields) (check : Text × (Value → Bool)) (r : Checked Unit) : Prop :=
  match wrongSetting? settings check with
  | none => r = .ok ()
  | some v => Refused (some v) r

theorem checks_of_fallback {settings : Fields} {check : Text × (Value → Bool)} {fallback : Value}
    {e : Text → Error} (hd : check.2 fallback = true) :
    Checks settings check
      (if check.2 ((settings.get? check.1).getD fallback) then .ok ()
        else refuseShowing ((settings.get? check.1).getD fallback) e) := by
  rw [Checks, wrongSetting?]
  cases settings.get? check.1 with
  | none => simp [hd]
  | some v =>
    cases hv : check.2 v with
    | true => simp [Option.filter, hv]
    | false =>
      simp only [Option.filter, hv, Bool.not_false, if_true, Option.getD_some, Bool.false_eq_true,
        if_false]
      exact ⟨e, rfl⟩

theorem Checks.bind {settings : Fields} {check : Text × (Value → Bool)} {r : Checked Unit}
    (h : Checks settings check r) {α : Type} {rest : List (Text × (Value → Bool))}
    {next : Checked α} {a : α}
    (hnext : match rest.findSome? (wrongSetting? settings) with
      | none => next = .ok a
      | some v => Refused (some v) next) :
    match (check :: rest).findSome? (wrongSetting? settings) with
    | none => (r >>= fun _ => next) = .ok a
    | some v => Refused (some v) (r >>= fun _ => next) := by
  rw [Checks] at h
  rw [List.findSome?_cons]
  cases hw : wrongSetting? settings check with
  | none =>
    rw [hw] at h
    subst h
    exact hnext
  | some v =>
    rw [hw] at h
    exact h.bind _

/-- Valid defaults pass every check, so only what the block gives can be refused. -/
theorem checkConfig_override (settings : Fields) {defaults : Config} (hd : defaults.Valid) :
    match settingChecks.findSome? (wrongSetting? settings) with
    | none => checkConfig (override settings defaults) = .ok (override settings defaults)
    | some v => Refused (some v) (checkConfig (override settings defaults)) := by
  obtain ⟨dpi, width, quiet, hdpi, hwidth, rfl⟩ := hd
  rw [checkConfig, requirePositive, requirePositive, isPositive_eq, isPositive_eq]
  refine Checks.bind (checks_of_fallback ?_) (Checks.bind (checks_of_fallback ?_) ?_)
  · simpa [isPositiveWhole, Value.whole?] using hdpi
  · simpa [isPositiveWhole, Value.whole?] using hwidth
  · rw [List.findSome?_singleton, wrongSetting?, override]
    cases settings.get? "suppress_separator" with
    | none => rfl
    | some v =>
      cases hv : isFlag v with
      | true => simp [Option.filter, hv, pure, Except.pure]
      | false =>
        simp only [Option.filter, hv, Bool.not_false, if_true, Option.getD_some,
          Bool.false_eq_true, if_false]
        exact ⟨_, rfl⟩

/-- Reading a block gives the defaults with the settings in their place, or refuses the block. -/
theorem readConfig_spec {block : Value}
    (hblock : block = .null ∨ ∃ settings, block = .object settings) {defaults : Config}
    (hd : defaults.Valid) :
    (AdmittedSettings (settingsOf block) →
      readConfig block defaults = .ok (override (settingsOf block) defaults)) ∧
    (¬ AdmittedSettings (settingsOf block) →
      Refused (refusedSetting? (settingsOf block)) (readConfig block defaults)) := by
  rw [readConfig_eq hblock, admittedSettings_iff, refusedSetting?]
  by_cases hknown : ∀ entry ∈ settingsOf block, entry.1 ∈ settingNames
  · rw [if_pos hknown, unknownNames_eq_nil_iff.mpr hknown]
    have hcheck := checkConfig_override (settingsOf block) hd
    cases hwrong : settingChecks.findSome? (wrongSetting? (settingsOf block)) with
    | none =>
      rw [hwrong] at hcheck
      exact ⟨fun _ => hcheck, fun h => absurd ⟨hknown, rfl⟩ h⟩
    | some v =>
      rw [hwrong] at hcheck
      exact ⟨fun h => by simp at h, fun _ => hcheck⟩
  · rw [if_neg hknown]
    cases hnames : unknownNames (settingsOf block) with
    | nil => exact absurd (unknownNames_eq_nil_iff.mp hnames) hknown
    | cons name rest => exact ⟨fun h => absurd h.1 hknown, fun _ => ⟨_, rfl⟩⟩

theorem requirePositive_eq_ok_iff (name : String) {v : Value} :
    requirePositive name v = .ok () ↔ isPositiveWhole v = true := by
  rw [requirePositive, isPositive_eq]
  split
  · simp [*]
  · simp [*, refuseShowing_ne_ok]

/-- Settings that pass the checks pass unchanged. -/
theorem checkConfig_eq_ok_iff {c config : Config} :
    checkConfig c = .ok config ↔ isPositiveWhole c.dpi = true ∧ isPositiveWhole c.maxWidth = true ∧
      isFlag c.suppressSeparator = true ∧ config = c := by
  rw [checkConfig, ← requirePositive_eq_ok_iff "dpi", ← requirePositive_eq_ok_iff "max_width"]
  cases requirePositive "dpi" c.dpi with
  | error e => simp [bind, Except.bind]
  | ok _ =>
    cases requirePositive "max_width" c.maxWidth with
    | error e => simp [bind, Except.bind]
    | ok _ =>
      simp only [bind, Except.bind, true_and]
      split
      · simp [*, pure, Except.pure, eq_comm]
      · simp [*, refuseShowing_ne_ok]

/-- A block is read if it is an object of known settings, or counts as false, and the settings that
result from it pass the checks. -/
theorem readConfig_eq_ok_iff {block : Value} {defaults config : Config} :
    readConfig block defaults = .ok config ↔
      (block.truthy = false ∨ ∃ settings, block = .object settings) ∧
        unknownNames (settingsOf block) = [] ∧
        checkConfig (override (settingsOf block) defaults) = .ok config := by
  have hnone : unknownNames [] = [] := unknownNames_eq_nil_iff.mpr (by simp)
  unfold readConfig
  cases htruthy : block.truthy with
  | false =>
    have hempty : settingsOf block = [] := by
      cases block with
      | object settings => simpa [Value.truthy, settingsOf] using htruthy
      | _ => rfl
    simp [hempty, hnone, override]
  | true =>
    cases block with
    | object settings =>
      simp only [Bool.not_true, Bool.false_eq_true, if_false, settingsOf]
      split
      · rename_i hknown
        simp [hknown]
      · rename_i hunknown
        exact iff_of_false (by simp [refuse]) fun h => hunknown h.2.1
    | _ => simp [refuse]

/-- Whatever the defaults are, a script runs under a positive width only. -/
theorem maxWidth_of_readConfig {block : Value} {defaults config : Config}
    (h : readConfig block defaults = .ok config) :
    ∃ w, config.maxWidth.whole? = some w ∧ 0 < w := by
  obtain ⟨-, -, hcheck⟩ := readConfig_eq_ok_iff.mp h
  obtain ⟨-, hwidth, -, rfl⟩ := checkConfig_eq_ok_iff.mp hcheck
  simpa [isPositiveWhole, Option.any_eq_true] using hwidth

end ThermalLabel.Script
