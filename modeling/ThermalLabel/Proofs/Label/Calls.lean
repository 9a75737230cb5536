import ThermalLabel.Label.Document
import ThermalLabel.Proofs.Label.Naming

/-!
# Calls on a label

Calls are performed one after another until one of them fails.  A call may give the first fields of
its operation by position, as long as every field behind them has a value of its own.  What such a
call binds to a field is the argument at the field's place, and the field's own value behind the
last argument.
-/
namespace ThermalLabel

namespace Document

variable {d : Document} {call : Call} {rest : List Call}

theorem performAll_cons_of_ok {o : Outcome}
    (h : (call.operation.emit d.config call.arguments).outcome = .ok o) :
    d.performAll (call :: rest) =
      (d.append (call.operation.emit d.config call.arguments).fragments).performAll rest := by
  rw [performAll]
  simp only [perform, h]

theorem performAll_cons_of_error {f : Fault}
    (h : (call.operation.emit d.config call.arguments).outcome = .error f) :
    d.performAll (call :: rest) = .error f := by
  rw [performAll]
  simp only [perform, h]

theorem performAll_append (d : Document) (first second : List Call) :
    d.performAll (first ++ second) = d.performAll first >>= fun next => next.performAll second := by
  induction first generalizing d with
  | nil => rfl
  | cons call rest ih =>
    rw [List.cons_append]
    cases ho : (call.operation.emit d.config call.arguments).outcome with
    | ok o => rw [performAll_cons_of_ok ho, performAll_cons_of_ok ho, ih]
    | error f => rw [performAll_cons_of_error ho, performAll_cons_of_error ho]; rfl

/-- Whether a call fails, and what it adds, depends on the settings only. -/
theorem performAll_eq_ok_iff {calls : List Call} {next : Document} :
    d.performAll calls = .ok next ↔
      (∀ call ∈ calls, ∃ o, (call.operation.emit d.config call.arguments).outcome = .ok o) ∧
        next = d.append (calls.flatMap fun call =>
          (call.operation.emit d.config call.arguments).fragments) := by
  induction calls generalizing d with
  | nil => simp [performAll, append, eq_comm]
  | cons call rest ih =>
    rw [List.forall_mem_cons]
    cases ho : (call.operation.emit d.config call.arguments).outcome with
    | ok o =>
      rw [performAll_cons_of_ok ho, ih]
      simp [append, List.append_assoc]
    | error f =>
      rw [performAll_cons_of_error ho]
      simp

/-- Calls of which none fails give a label. -/
theorem performAll_of_forall {calls : List Call} (d : Document)
    (h : ∀ call ∈ calls, ∃ o, (call.operation.emit d.config call.arguments).outcome = .ok o) :
    ∃ next, d.performAll calls = .ok next :=
  ⟨_, performAll_eq_ok_iff.mpr ⟨h, rfl⟩⟩

end Document

/-- The operation can be called with so many arguments by position. -/
def Operation.takes (op : Operation) (count : Nat) : Bool :=
  decide (count ≤ op.fields.length) && (op.fields.drop count).all fun f => !f.required

/-- A call with arguments by position; the fields behind them keep their own values. -/
def Call.positional (op : Operation) (given : List Value) : Call :=
  ⟨op, Arguments.ofList (byPosition op.fields given ++ byName [] (op.fields.drop given.length))⟩

section Positional

variable {op : Operation} {given : List Value} {fs : List Field} {p : Parameter}

theorem Operation.takes_iff {count : Nat} :
    op.takes count = true ↔
      count ≤ op.fields.length ∧ ∀ f ∈ op.fields.drop count, f.required = false := by
  simp [takes]

theorem bindCall_positional (h : op.takes given.length = true) :
    bindCall op.fields given [] = .ok (Call.positional op given).arguments := by
  obtain ⟨hlength, hrest⟩ := Operation.takes_iff.mp h
  have hfree : ((op.fields.drop given.length).any fun f => (f.valueFrom []).isNone) = false := by
    rw [List.any_eq_false]
    intro f hf
    have hdefault := hrest f hf
    rw [Field.required] at hdefault
    simp [Field.valueFrom, Fields.get?_nil, hdefault]
  rw [bindCall, if_neg (Nat.not_lt.mpr hlength), if_neg (by simp), if_neg (by simp [hfree])]
  rfl

theorem lookup_byPosition_cons (f : Field) (v : Value) :
    (byPosition (f :: fs) (v :: given)).lookup p =
      if f.parameter = p then some v else (byPosition fs given).lookup p := by
  rw [byPosition, List.lookup_cons]
  by_cases h : f.parameter = p
  · simp [h]
  · rw [if_neg h, beq_false_of_ne (Ne.symm h)]

/-- Fields that may all be left out are bound to their own values. -/
theorem lookup_byName_nil (h : ∀ f ∈ fs, f.required = false) :
    (byName [] fs).lookup p = (fs.find? (·.parameter == p)).bind (·.default?) := by
  induction fs with
  | nil => rfl
  | cons f rest ih =>
    rw [List.forall_mem_cons] at h
    obtain ⟨d, hd⟩ : ∃ d, f.default? = some d := by
      rw [← Option.isSome_iff_exists]
      simpa [Field.required] using h.1
    have hvalue : f.valueFrom [] = some d := by simp [Field.valueFrom, hd]
    rw [byName, List.filterMap_cons, hvalue, Option.map_some, List.lookup_cons]
    by_cases hp : f.parameter = p
    · simp [hp, hd]
    · rw [beq_false_of_ne (Ne.symm hp), List.find?_cons_of_neg (by simpa using hp)]
      exact ih h.2

/-- Every field that cannot be left out has an argument. -/
theorem lookup_byPosition_isSome (h : ∀ f ∈ fs.drop given.length, f.required = false) {f : Field}
    (hf : f ∈ fs) (hrequired : f.required = true) :
    ((byPosition fs given).lookup f.parameter).isSome = true := by
  induction fs generalizing given with
  | nil => simp at hf
  | cons g rest ih =>
    cases given with
    | nil =>
      have hfree := h f hf
      rw [hrequired] at hfree
      cases hfree
    | cons v given =>
      rw [lookup_byPosition_cons]
      split
      · rfl
      · rename_i hne
        rcases List.mem_cons.mp hf with rfl | hf
        · exact absurd rfl hne
        · exact ih h hf

/-- What is bound to a field is the argument at its place. -/
theorem mem_zip_of_lookup_byPosition (hnodup : (fs.map (·.parameter)).Nodup) {f : Field}
    (hf : f ∈ fs) {v : Value} (h : (byPosition fs given).lookup f.parameter = some v) :
    (f, v) ∈ fs.zip given := by
  induction fs generalizing given with
  | nil => simp at hf
  | cons g rest ih =>
    rw [List.map_cons, List.nodup_cons] at hnodup
    cases given with
    | nil => simp [byPosition] at h
    | cons w given =>
      rw [lookup_byPosition_cons] at h
      rw [List.zip_cons_cons]
      rcases List.mem_cons.mp hf with rfl | hf
      · rw [if_pos rfl] at h
        cases h
        exact List.mem_cons_self
      · have hne : g.parameter ≠ f.parameter := by
          intro heq
          exact hnodup.1 (heq ▸ List.mem_map_of_mem hf)
        rw [if_neg hne] at h
        exact List.mem_cons_of_mem _ (ih hnodup.2 hf h)

end Positional

end ThermalLabel
