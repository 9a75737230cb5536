import ThermalLabel.Json.Writer
import ThermalLabel.Proofs.Text.Unbroken

/-!
# Values that can be stored

A value has a form in octets when no half of a pair stands alone in any of its texts and keys and
its integers are short enough to be written.
-/
namespace ThermalLabel

open Text (Unbroken)

/-- Everything in the value can be written in octets. -/
inductive Value.Encodable : Value → Prop
  | null : Encodable .null
  | flag (b : Bool) : Encodable (.flag b)
  | integer {n : Int} (h : Number.writable n = true) : Encodable (.integer n)
  | double (x : Number.Double) : Encodable (.double x)
  | decimal (d : Number.Decimal) : Encodable (.decimal d)
  | text {s : Text} (h : Unbroken s) : Encodable (.text s)
  | member (m : Member) : Encodable (.member m)
  | list {items : List Value} (h : ∀ v ∈ items, Encodable v) : Encodable (.list items)
  | object {fields : Fields} (h : ∀ f ∈ fields, Encodable f.2)
      (hkeys : ∀ f ∈ fields, Unbroken f.1) : Encodable (.object fields)

/-- The fields of an object that can be stored. -/
def Fields.Encodable (fields : Fields) : Prop :=
  ∀ f ∈ fields, Unbroken f.1 ∧ f.2.Encodable

namespace Json

theorem unbroken_escapePoint {c : CodePoint} (h : ∃ d : Char, c = .char d) :
    Unbroken (escapePoint c) := by
  have hpair : ∀ d e : Char, Unbroken [.char d, .char e] := fun d e => Text.unbroken_ofChars [d, e]
  unfold escapePoint
  split
  · exact hpair _ _
  split
  · exact hpair _ _
  split
  · exact hpair _ _
  split
  · exact hpair _ _
  split
  · exact hpair _ _
  split
  · exact hpair _ _
  split
  · exact hpair _ _
  split
  · exact Text.unbroken_ofChars _
  · exact Text.unbroken_cons.mpr ⟨h, Text.unbroken_nil⟩

theorem unbroken_writeText {s : Text} (h : Unbroken s) : Unbroken (writeText s) := by
  refine Text.unbroken_append.mpr
    ⟨Text.unbroken_cons.mpr ⟨⟨_, rfl⟩, ?_⟩, Text.unbroken_ofChars ['"']⟩
  exact Text.unbroken_flatMap fun c hc => unbroken_escapePoint (h c hc)

theorem unbroken_writeDouble (x : Number.Double) : Unbroken (writeDouble x) := by
  unfold writeDouble
  split
  · split <;> exact Text.unbroken_ofString _
  · exact Text.unbroken_ofString _
  · exact Text.unbroken_ofChars _

theorem unbroken_writeItems {items : List Value} (h : ∀ v ∈ items, Unbroken (write v)) :
    Unbroken (writeItems items) := by
  induction items with
  | nil => exact Text.unbroken_nil
  | cons v items ih =>
    have hv := h v List.mem_cons_self
    have hrest := ih fun w hw => h w (List.mem_cons_of_mem v hw)
    cases items with
    | nil => exact hv
    | cons w items => exact (hv.append (Text.unbroken_ofString _)).append hrest

theorem unbroken_writeFields {fields : Fields} (hkeys : ∀ f ∈ fields, Unbroken f.1)
    (h : ∀ f ∈ fields, Unbroken (write f.2)) : Unbroken (writeFields fields) := by
  induction fields with
  | nil => exact Text.unbroken_nil
  | cons f fields ih =>
    have hfield : Unbroken (writeText f.1 ++ ": " ++ write f.2) :=
      ((unbroken_writeText (hkeys f List.mem_cons_self)).append (Text.unbroken_ofString _)).append
        (h f List.mem_cons_self)
    have hrest := ih (fun g hg => hkeys g (List.mem_cons_of_mem f hg))
      fun g hg => h g (List.mem_cons_of_mem f hg)
    cases fields with
    | nil => exact hfield
    | cons g fields => exact (hfield.append (Text.unbroken_ofString _)).append hrest

theorem unbroken_write {v : Value} (h : v.Encodable) : Unbroken (write v) := by
  induction h with
  | null => exact Text.unbroken_ofString _
  | flag b => cases b <;> exact Text.unbroken_ofString _
  | integer h => exact Text.unbroken_ofChars _
  | double x => exact unbroken_writeDouble x
  | decimal d => exact unbroken_writeText (Text.unbroken_ofChars _)
  | text h => exact unbroken_writeText h
  | member m => exact Text.unbroken_ofNat _
  | list h ih =>
    exact ((Text.unbroken_ofString _).append (unbroken_writeItems ih)).append
      (Text.unbroken_ofString _)
  | object h hkeys ih =>
    exact ((Text.unbroken_ofString _).append (unbroken_writeFields hkeys ih)).append
      (Text.unbroken_ofString _)

/-! ### A half that stands alone is written as it is -/

theorem escapePoint_half (i : Fin 0x800) : escapePoint (.half i) = [.half i] := by
  have hne (c : Char) : CodePoint.half i ≠ .char c := nofun
  have hcode : ¬ CodePoint.toNat (.half i) < 32 := by
    simp only [CodePoint.toNat, CodePoint.firstHalf]
    omega
  have hlow : CodePoint.toNat (.half i) ≠ 8 ∧ CodePoint.toNat (.half i) ≠ 12 := by omega
  simp only [escapePoint, hne, hcode, hlow, if_false]

theorem unbroken_of_writeText {s : Text} (h : Unbroken (writeText s)) : Unbroken s := by
  have hpoints : Unbroken (s.flatMap escapePoint) :=
    (Text.unbroken_cons.mp (Text.unbroken_append.mp h).1).2
  intro c hc
  cases c with
  | char d => exact ⟨d, rfl⟩
  | half i =>
    refine hpoints _ (List.mem_flatMap.mpr ⟨_, hc, ?_⟩)
    rw [escapePoint_half]
    exact List.mem_singleton_self _

theorem unbroken_of_writeFields {fields : Fields} (h : Unbroken (writeFields fields)) :
    ∀ f ∈ fields, Unbroken (write f.2) := by
  induction fields with
  | nil => exact List.forall_mem_nil _
  | cons f fields ih =>
    rw [List.forall_mem_cons]
    cases fields with
    | nil => exact ⟨(Text.unbroken_append.mp h).2, List.forall_mem_nil _⟩
    | cons g fields =>
      obtain ⟨hfirst, hrest⟩ := Text.unbroken_append.mp h
      exact ⟨(Text.unbroken_append.mp (Text.unbroken_append.mp hfirst).1).2, ih hrest⟩

/-- A text with a lone half keeps an object from being written in octets. -/
theorem unbroken_of_write_object {fields : Fields} (h : Unbroken (write (.object fields)))
    {name s : Text} (hs : (name, Value.text s) ∈ fields) : Unbroken s := by
  have hfields : Unbroken (writeFields fields) :=
    (Text.unbroken_append.mp (Text.unbroken_append.mp h).1).2
  exact unbroken_of_writeText (unbroken_of_writeFields hfields _ hs)

theorem writableItems_iff {items : List Value} :
    writableItems items = true ↔ ∀ v ∈ items, writable v = true := by
  induction items with
  | nil => simp [writableItems]
  | cons v items ih => simp [writableItems, ih]

theorem writableFields_iff {fields : Fields} :
    writableFields fields = true ↔ ∀ f ∈ fields, writable f.2 = true := by
  induction fields with
  | nil => simp [writableFields]
  | cons f fields ih => simp [writableFields, ih]

/-- One field that cannot be written is enough. -/
theorem not_writable_of_mem {fields : Fields} {f : Text × Value} (hf : f ∈ fields)
    (h : writable f.2 = false) : writable (.object fields) = false := by
  rw [writable, ← Bool.not_eq_true, writableFields_iff]
  intro hall
  rw [hall f hf] at h
  cases h

theorem writable_of_encodable {v : Value} (h : v.Encodable) : writable v = true := by
  induction h with
  | integer h => exact h
  | list h ih => exact writableItems_iff.mpr ih
  | object h hkeys ih => exact writableFields_iff.mpr ih
  | _ => rfl

end Json

theorem Fields.Encodable.object {fields : Fields} (h : fields.Encodable) :
    Value.Encodable (.object fields) :=
  .object (fun f hf => (h f hf).2) fun f hf => (h f hf).1

end ThermalLabel
