import ThermalLabel.Proofs.Text.Unbroken
import ThermalLabel.Value.Arithmetic
import ThermalLabel.Value.Text

/-!
# Values without lone halves

A value is unbroken when no half of a pair stands alone in any of its texts and keys.  What it is
written as takes less: quoting escapes the halves inside lists and objects, so only a value that is
a text itself can be written with one.
-/
namespace ThermalLabel

/-- What a computation gives comes from what its first step gave. -/
theorem exists_of_bind_eq_ok {ε α β : Type} {step : Except ε α} {next : α → Except ε β} {b : β}
    (h : step >>= next = .ok b) : ∃ a, step = .ok a ∧ next a = .ok b := by
  cases step with
  | error e => cases h
  | ok a => exact ⟨a, rfl, h⟩

theorem exists_of_map_eq_ok {ε α β : Type} {step : Except ε α} {f : α → β} {b : β}
    (h : step.map f = .ok b) : ∃ a, step = .ok a ∧ f a = b := by
  cases step with
  | error e => cases h
  | ok a => exact ⟨a, rfl, Except.ok.inj h⟩

namespace Value

mutual

/-- The texts and keys in a value. -/
def texts : Value → List Text
  | text s => [s]
  | list items => itemTexts items
  | object fields => fieldTexts fields
  | _ => []

def itemTexts : List Value → List Text
  | [] => []
  | v :: rest => v.texts ++ itemTexts rest

def fieldTexts : List (Text × Value) → List Text
  | [] => []
  | (key, v) :: rest => key :: v.texts ++ fieldTexts rest

end

/-- No half of a pair stands alone anywhere in the value. -/
def Unbroken (v : Value) : Prop :=
  ∀ s ∈ v.texts, Text.Unbroken s

instance (v : Value) : Decidable v.Unbroken :=
  inferInstanceAs (Decidable (∀ s ∈ v.texts, s.Unbroken))

theorem unbroken_object_iff {fields : Fields} :
    Unbroken (.object fields) ↔ ∀ f ∈ fields, Text.Unbroken f.1 ∧ Unbroken f.2 := by
  rw [Unbroken, texts]
  induction fields with
  | nil => simp [fieldTexts]
  | cons f rest ih =>
    simp only [fieldTexts, List.cons_append, List.forall_mem_cons, List.forall_mem_append, ih,
      Unbroken, and_assoc]

/-- If the value is a text, no half of a pair stands alone in it. -/
def Clean (v : Value) : Prop :=
  ∀ s, v = .text s → Text.Unbroken s

theorem clean_text {s : Text} : Clean (.text s) ↔ Text.Unbroken s :=
  ⟨fun h => h s rfl, by rintro h _ ⟨⟩; exact h⟩

theorem Unbroken.clean {v : Value} (h : v.Unbroken) : v.Clean := by
  rintro s rfl
  exact h s List.mem_cons_self

variable {a b v : Value} {t : Text}

theorem integerText_unbroken {n : Int} (h : integerText n = .ok t) : Text.Unbroken t := by
  unfold integerText at h
  split at h
  · cases h
    exact Text.unbroken_ofChars _
  · cases h

theorem memberText_unbroken (m : Member) : Text.Unbroken (memberText m) := by
  have h (s : String) : Text.Unbroken (Text.ofString s) := Text.unbroken_ofString s
  simp [memberText, Text.unbroken_append, h]

mutual

/-- Whatever a value holds, its quoted form can be written in octets. -/
theorem quoted_unbroken (v : Value) {t : Text} (h : v.quoted = .ok t) : Text.Unbroken t := by
  cases v with
  | null =>
    cases h
    exact Text.unbroken_ofString _
  | flag b =>
    cases h
    cases b <;> exact Text.unbroken_ofString _
  | integer n => exact integerText_unbroken h
  | double x =>
    cases h
    exact Text.unbroken_ofChars _
  | decimal d =>
    cases h
    exact ((Text.unbroken_ofString _).append (Text.unbroken_ofChars _)).append
      (Text.unbroken_ofString _)
  | text s =>
    cases h
    exact Text.unbroken_quoted s
  | member m =>
    cases h
    exact memberText_unbroken m
  | list items =>
    obtain ⟨parts, hparts, rfl⟩ := exists_of_map_eq_ok h
    have hjoin := Text.unbroken_join (Text.unbroken_ofString ", ")
      (quotedItems_unbroken items hparts)
    exact ((Text.unbroken_ofString _).append hjoin).append (Text.unbroken_ofString _)
  | object fields =>
    obtain ⟨parts, hparts, rfl⟩ := exists_of_map_eq_ok h
    have hjoin := Text.unbroken_join (Text.unbroken_ofString ", ")
      (quotedFields_unbroken fields hparts)
    exact ((Text.unbroken_ofString _).append hjoin).append (Text.unbroken_ofString _)

theorem quotedItems_unbroken (items : List Value) {parts : List Text}
    (h : quotedItems items = .ok parts) : ∀ part ∈ parts, Text.Unbroken part := by
  cases items with
  | nil =>
    cases h
    simp
  | cons v rest =>
    obtain ⟨s, hv, h⟩ := exists_of_bind_eq_ok h
    obtain ⟨others, hrest, h⟩ := exists_of_bind_eq_ok h
    cases h
    exact List.forall_mem_cons.mpr ⟨quoted_unbroken v hv, quotedItems_unbroken rest hrest⟩

theorem quotedFields_unbroken (fields : List (Text × Value)) {parts : List Text}
    (h : quotedFields fields = .ok parts) : ∀ part ∈ parts, Text.Unbroken part := by
  cases fields with
  | nil =>
    cases h
    simp
  | cons field rest =>
    obtain ⟨key, v⟩ := field
    obtain ⟨s, hv, h⟩ := exists_of_bind_eq_ok h
    obtain ⟨others, hrest, h⟩ := exists_of_bind_eq_ok h
    cases h
    refine List.forall_mem_cons.mpr ⟨?_, quotedFields_unbroken rest hrest⟩
    exact ((Text.unbroken_quoted key).append (Text.unbroken_ofString _)).append
      (quoted_unbroken v hv)

end

theorem toText_unbroken (hv : v.Clean) (h : v.toText = .ok t) : Text.Unbroken t := by
  cases v with
  | text s =>
    cases h
    exact hv t rfl
  | member m =>
    cases h
    exact Text.unbroken_ofNat _
  | decimal d =>
    cases h
    exact Text.unbroken_ofChars _
  | _ => exact quoted_unbroken _ h

/-! ### Sums and differences -/

theorem combine_clean {onIntegers : Int → Int → Int}
    {onDoubles : Number.Double → Number.Double → Number.Double}
    {onDecimals : Number.Decimal → Number.Decimal →
      Except Number.Decimal.Signal Number.Decimal}
    (h : combine onIntegers onDoubles onDecimals a b = .ok v) : v.Clean := by
  -- The answer is a number in every branch that gives one.
  unfold combine at h
  split at h
  · cases h
    nofun
  · split at h
    · cases h
    · cases h
    · obtain ⟨x, -, h⟩ := exists_of_bind_eq_ok h
      obtain ⟨y, -, h⟩ := exists_of_bind_eq_ok h
      cases h
      nofun
    · obtain ⟨x, -, h⟩ := exists_of_bind_eq_ok h
      obtain ⟨y, -, h⟩ := exists_of_bind_eq_ok h
      cases h
      nofun
    · split at h
      · obtain ⟨d, -, rfl⟩ := exists_of_map_eq_ok h
        nofun
      · cases h

theorem add_clean (ha : a.Clean) (hb : b.Clean) (h : a.add b = .ok v) : v.Clean := by
  unfold add at h
  split at h
  · cases h
    exact clean_text.mpr ((ha _ rfl).append (hb _ rfl))
  · cases h
    nofun
  · cases h
    nofun
  · cases h
    nofun
  · exact combine_clean h

theorem sub_clean (h : a.sub b = .ok v) : v.Clean :=
  combine_clean h

end Value

/-- The wording of a fault holds no lone half, for what it shows is quoted. -/
theorem Fault.message_unbroken (f : Fault) : Text.Unbroken f.message := by
  cases f with
  | notInteger numeral =>
    have hshown : Text.Unbroken ((Text.quoted numeral).take 200) :=
      (Text.unbroken_quoted numeral).of_subset (List.take_subset _ _)
    simp [message, Text.unbroken_append, hshown]
  | _ => simp [message, Text.unbroken_append]

end ThermalLabel
