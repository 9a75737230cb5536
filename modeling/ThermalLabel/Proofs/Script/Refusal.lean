import ThermalLabel.Proofs.Script.Admission

/-!
# Refused steps

A refusal shows at most one value: the name of an unknown operation, the first choice that names no
member, or the first value of a wrong type.  `shown?` is that value.  As long as its integers can be
written, the refusal is an error of the script and nothing worse.
-/
namespace ThermalLabel.Script

/-- The value given for a field, if it may not be given for it. -/
def inadmissible? (fields : Fields) (f : Field) : Option Value :=
  (fields.get? f.parameter.name).filter fun v => !admits f.type v

def isChoice : FieldType → Bool
  | .choice _ => true
  | _ => false

/-- The first value among those given for the fields that may not be given. -/
def firstInadmissible? (given : Fields) : List Field → Option Value
  | [] => none
  | f :: rest => (inadmissible? given f).or (firstInadmissible? given rest)

def choices (fs : List Field) : List Field :=
  fs.filter fun f => isChoice f.type

/-- No field is missing and none is unknown. -/
def NamesMatch (op : Operation) (fields : Fields) : Prop :=
  (∀ f ∈ op.fields, f.required = true → (fields.get? f.parameter.name).isSome = true) ∧
    ∀ entry ∈ fields, entry.1 = Text.ofString "op" ∨
      ∃ f ∈ op.fields, entry.1 = Text.ofString f.parameter.name

instance (op : Operation) (fields : Fields) : Decidable (NamesMatch op fields) :=
  inferInstanceAs (Decidable (_ ∧ _))

/-- The value that is shown when the fields of a step are refused.  Choices are read first, then
the names are checked, and only then the other types. -/
def refused? (op : Operation) (fields : Fields) : Option Value :=
  (firstInadmissible? fields (choices op.fields)).or <|
    if NamesMatch op fields then firstInadmissible? fields op.fields else none

/-- The value that is shown when a step is refused. -/
def shown? : Value → Option Value
  | .object fields =>
    match operation? fields with
    | some op => refused? op fields
    | none => some ((Fields.get? fields "op").getD .null)
  | _ => none

/-- A refusal that shows a value, if one is given, and nothing else. -/
def Refused {α : Type} (shown : Option Value) (r : Checked α) : Prop :=
  match shown with
  | some v => ∃ e, r = refuseShowing v e
  | none => ∃ e, r = refuse e

namespace Refused

variable {α β : Type} {shown : Option Value} {r : Checked α}

theorem bind (h : Refused shown r) (next : α → Checked β) : Refused shown (r >>= next) := by
  cases shown with
  | none =>
    obtain ⟨e, rfl⟩ := h
    exact ⟨e, rfl⟩
  | some v =>
    obtain ⟨e, rfl⟩ := h
    refine ⟨e, ?_⟩
    unfold refuseShowing
    cases v.quoted <;> rfl

theorem isError (h : Refused shown r) : ∃ failure, r = .error failure := by
  cases shown with
  | none =>
    obtain ⟨e, rfl⟩ := h
    exact ⟨_, rfl⟩
  | some v =>
    obtain ⟨e, rfl⟩ := h
    unfold refuseShowing
    cases v.quoted <;> exact ⟨_, rfl⟩

/-- If the value can be shown, the refusal is an error of the script. -/
theorem of_short (h : Refused shown r) (hs : ∀ v ∈ shown, v.Short) :
    ∃ e, r = .error (.error e) := by
  cases shown with
  | none =>
    obtain ⟨e, rfl⟩ := h
    exact ⟨e, rfl⟩
  | some v =>
    obtain ⟨e, rfl⟩ := h
    obtain ⟨s, hv⟩ := Value.quoted_of_short v (hs v rfl)
    exact ⟨e s, by simp [refuseShowing, hv, liftFault, refuse, Bind.bind, Except.bind]⟩

end Refused

theorem refuseShowing_ne_ok {α : Type} (v : Value) (e : Text → Error) (a : α) :
    refuseShowing v e ≠ .ok a := by
  have hrefused : Refused (α := α) (some v) (refuseShowing v e) := ⟨e, rfl⟩
  obtain ⟨failure, hf⟩ := hrefused.isError
  simp [hf]

theorem inadmissible?_of_admits {given : Fields} {f : Field} {v : Value}
    (hget : given.get? f.parameter.name = some v) (hv : admits f.type v = true) :
    inadmissible? given f = none := by
  simp [inadmissible?, hget, hv]

theorem inadmissible?_of_not_admits {given : Fields} {f : Field} {v : Value}
    (hget : given.get? f.parameter.name = some v) (hv : admits f.type v = false) :
    inadmissible? given f = some v := by
  simp [inadmissible?, hget, hv]

theorem firstInadmissible?_congr {fs : List Field} {given read : Fields}
    (h : ∀ f ∈ fs, read.get? f.parameter.name = given.get? f.parameter.name) :
    firstInadmissible? read fs = firstInadmissible? given fs := by
  induction fs with
  | nil => rfl
  | cons f rest ih =>
    rw [firstInadmissible?, firstInadmissible?, inadmissible?, inadmissible?,
      h f List.mem_cons_self, ih fun g hg => h g (List.mem_cons_of_mem _ hg)]

theorem firstInadmissible?_eq_none {fs : List Field} {given : Fields} :
    firstInadmissible? given fs = none ↔
      ∀ f ∈ fs, ∀ v ∈ given.get? f.parameter.name, admits f.type v = true := by
  induction fs with
  | nil => simp [firstInadmissible?]
  | cons f rest ih =>
    rw [firstInadmissible?, Option.or_eq_none_iff, ih, List.forall_mem_cons, inadmissible?,
      Option.filter_eq_none_iff]
    simp

end ThermalLabel.Script
