import ThermalLabel.Proofs.Label.Emission
import ThermalLabel.Proofs.Label.Naming
import ThermalLabel.Proofs.Script.Choice
import ThermalLabel.Script.Step

/-!
# Steps that a script may take

A step is admitted if it names an operation, gives all fields that the operation requires and no
unknown one, and gives each field a value of its type.  Reading an admitted step succeeds, with a
call whose arguments are the given values, choices read, and the operation's own values for the
fields left out.  Every such call fits its operation.
-/
namespace ThermalLabel.Script

/-- The text is the name of a member up to case, underscores and hyphens. -/
def spells (e : Enumeration) (s : Text) : Bool :=
  e.names.any fun name => plainName name == plainName s

/-- The values that a script may give for a field. -/
def admits : FieldType → Value → Bool
  | .choice e, .text s => spells e s
  | .integer, v | .choice _, v => v.whole?.isSome
  | .text, .text _ | .flag, .flag _ | .optionalText, .null | .optionalText, .text _ => true
  | .number, .double _ => true
  | .number, v => v.whole?.isSome
  | _, _ => false

/-- The operation that the fields of a step name. -/
def operation? (fields : Fields) : Option Operation :=
  match fields.get? "op" with
  | some (.text name) => Operation.ofName? name
  | _ => none

/-- The fields are what the operation takes. -/
structure Admitted (op : Operation) (fields : Fields) : Prop where
  complete : ∀ f ∈ op.fields, f.required = true → (fields.get? f.parameter.name).isSome = true
  known : ∀ entry ∈ fields, entry.1 = Text.ofString "op" ∨
    ∃ f ∈ op.fields, entry.1 = Text.ofString f.parameter.name
  typed : ∀ f ∈ op.fields, ∀ v ∈ fields.get? f.parameter.name, admits f.type v = true

instance (op : Operation) (fields : Fields) : Decidable (Admitted op fields) :=
  decidable_of_iff
    ((∀ f ∈ op.fields, f.required = true → (fields.get? f.parameter.name).isSome = true) ∧
      (∀ entry ∈ fields, entry.1 = Text.ofString "op" ∨
        ∃ f ∈ op.fields, entry.1 = Text.ofString f.parameter.name) ∧
      ∀ f ∈ op.fields, ∀ v ∈ fields.get? f.parameter.name, admits f.type v = true)
    ⟨fun ⟨hc, hk, ht⟩ => ⟨hc, hk, ht⟩, fun h => ⟨h.complete, h.known, h.typed⟩⟩

/-- A step that a script may take. -/
def AdmittedStep : Value → Prop
  | .object fields => ∃ op ∈ operation? fields, Admitted op fields
  | _ => False

/-- What a given value stands for: a choice for the member it names or numbers, if there is one,
any other value for itself. -/
def settle (t : FieldType) (v : Value) : Value :=
  match t with
  | .choice e => match choose e v with
    | .ok chosen => chosen
    | .error _ => v
  | _ => v

/-- The arguments that the fields of a step give to an operation. -/
def argumentsOf (op : Operation) (fields : Fields) : Arguments := fun p =>
  ((op.fields.find? (·.parameter == p)).bind fun f =>
    ((fields.get? f.parameter.name).map (settle f.type)).or f.default?).getD .null

/-- The call that an admitted step stands for. -/
def callOf? : Value → Option Call
  | .object fields => (operation? fields).bind fun op =>
    if Admitted op fields then some ⟨op, argumentsOf op fields⟩ else none
  | _ => none

theorem callOf?_eq_some_iff {step : Value} {call : Call} :
    callOf? step = some call ↔ ∃ fields op, step = .object fields ∧
      operation? fields = some op ∧ Admitted op fields ∧ call = ⟨op, argumentsOf op fields⟩ := by
  cases step with
  | object fields =>
    simp only [callOf?, Option.bind_eq_some_iff]
    constructor
    · rintro ⟨op, hop, h⟩
      split at h
      · exact ⟨fields, op, rfl, hop, ‹_›, (Option.some.inj h).symm⟩
      · cases h
    · rintro ⟨fields', op, hfields, hop, ha, rfl⟩
      cases hfields
      exact ⟨op, hop, if_pos ha⟩
  | _ => simp [callOf?]

theorem admittedStep_iff {step : Value} : AdmittedStep step ↔ ∃ call, callOf? step = some call := by
  simp only [callOf?_eq_some_iff]
  cases step with
  | object fields =>
    constructor
    · rintro ⟨op, hop, ha⟩
      exact ⟨_, fields, op, rfl, hop, ha, rfl⟩
    · rintro ⟨call, fields', op, hfields, hop, ha, -⟩
      cases hfields
      exact ⟨op, hop, ha⟩
  | _ => simp [AdmittedStep]

theorem isInteger_eq (v : Value) : isInteger v = v.whole?.isSome := by
  cases v <;> rfl

theorem findName?_of_spells {e : Enumeration} {s : Text} (h : spells e s = true) :
    ∃ m, findName? e s = some m := by
  obtain ⟨name, hname, hplain⟩ := List.any_eq_true.mp h
  cases hfind : e.names.find? fun name : String => plainName name == plainName s with
  | none => exact absurd hplain (List.find?_eq_none.mp hfind name hname)
  | some found =>
    obtain ⟨m, hm⟩ := Member.exists_ofName? (List.mem_of_find?_eq_some hfind)
    exact ⟨m, by simp [findName?, hfind, hm]⟩

theorem findName?_of_not_spells {e : Enumeration} {s : Text} (h : spells e s = false) :
    findName? e s = none := by
  have hfind : (e.names.find? fun name : String => plainName name == plainName s) = none :=
    List.find?_eq_none.mpr fun name hname => List.any_eq_false.mp h name hname
  simp [findName?, hfind]

theorem whole?_ofNumber (e : Enumeration) {n : Int} {v : Value} (h : v.whole? = some n) :
    ∃ m, (ofNumber e n v).whole? = some m := by
  unfold ofNumber
  split
  · exact ⟨_, rfl⟩
  · exact ⟨n, h⟩

theorem choose_of_admits {e : Enumeration} {v : Value} (h : admits (.choice e) v = true) :
    ∃ chosen n, choose e v = .ok chosen ∧ chosen.whole? = some n := by
  cases v with
  | integer n =>
    obtain ⟨m, hm⟩ := whole?_ofNumber e (v := .integer n) rfl
    exact ⟨_, m, rfl, hm⟩
  | member k =>
    obtain ⟨m, hm⟩ := whole?_ofNumber e (v := .member k) rfl
    exact ⟨_, m, rfl, hm⟩
  | text s =>
    obtain ⟨m, hm⟩ := findName?_of_spells h
    exact ⟨.member m, m.number, by simp [choose, hm], rfl⟩
  | _ => simp [admits, Value.whole?] at h

theorem choose_of_not_admits {e : Enumeration} {v : Value} (h : admits (.choice e) v = false) :
    choose e v = refuseShowing v (.notMember e) := by
  cases v with
  | text s => simp [choose, findName?_of_not_spells h]
  | integer n | member m => simp [admits, Value.whole?] at h
  | _ => rfl

/-- A value that may be given for a field is of the field's type once it has been read. -/
theorem settle_holds {t : FieldType} {v : Value} (h : admits t v = true) :
    t.Holds (settle t v) := by
  cases t with
  | choice e =>
    obtain ⟨chosen, n, hc, hn⟩ := choose_of_admits h
    exact ⟨n, by simp [settle, hc, hn]⟩
  | integer => exact Option.isSome_iff_exists.mp h
  | text => cases v <;> simp_all [admits, settle, FieldType.Holds]
  | flag => cases v <;> simp_all [admits, settle, FieldType.Holds]
  | optionalText => cases v <;> simp_all [admits, settle, FieldType.Holds]
  | number => cases v <;> simp_all [admits, settle, FieldType.Holds, Value.whole?]

/-- Every value that an operation has of its own is of its field's type. -/
theorem default_holds (op : Operation) :
    ∀ f ∈ op.fields, ∀ v ∈ f.default?, f.type.Holds v := by
  cases op <;>
    simp [Operation.fields, Field.integer, Field.text, Field.flag, Field.choice, Field.option,
      FieldType.Holds, Value.whole?]

theorem find?_parameter {fs : List Field} (hnodup : (fs.map (·.parameter)).Nodup) {f : Field}
    (hf : f ∈ fs) : fs.find? (·.parameter == f.parameter) = some f := by
  induction fs with
  | nil => simp at hf
  | cons g rest ih =>
    rw [List.map_cons, List.nodup_cons] at hnodup
    rcases List.mem_cons.mp hf with rfl | hf
    · simp
    · have hne : g.parameter ≠ f.parameter := by
        intro heq
        exact hnodup.1 (heq ▸ List.mem_map_of_mem hf)
      rw [List.find?_cons_of_neg (by simpa using hne)]
      exact ih hnodup.2 hf

theorem argumentsOf_apply {op : Operation} (fields : Fields) {f : Field} (hf : f ∈ op.fields) :
    argumentsOf op fields f.parameter =
      (((fields.get? f.parameter.name).map (settle f.type)).or f.default?).getD .null := by
  rw [argumentsOf, find?_parameter op.parameters_nodup hf]
  rfl

/-- The arguments of an admitted step fit its operation. -/
theorem Admitted.fits {op : Operation} {fields : Fields} (h : Admitted op fields) :
    op.Fits (argumentsOf op fields) := by
  intro f hf
  rw [argumentsOf_apply fields hf]
  cases hget : fields.get? f.parameter.name with
  | some v => exact settle_holds (h.typed f hf v hget)
  | none =>
    cases hd : f.default? with
    | some d => exact default_holds op f hf d hd
    | none =>
      have hsome := h.complete f hf (by simp [Field.required, hd])
      simp [hget] at hsome

theorem fits_of_callOf? {step : Value} {call : Call} (h : callOf? step = some call) :
    call.operation.Fits call.arguments := by
  obtain ⟨fields, op, -, -, ha, rfl⟩ := callOf?_eq_some_iff.mp h
  exact ha.fits

end ThermalLabel.Script
