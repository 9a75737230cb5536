import Mathlib.Data.List.Forall2
import ThermalLabel.Label.Binding

/-!
# Names of fields, operations and members

Fields are looked up by name, so that much rests on no two parameters and no two operations
sharing a name.  An operation takes no parameter twice, and none that is called like the entry
that names the operation itself.  Members are looked up by number and by name.
-/
namespace ThermalLabel

theorem Text.ofString_inj {s t : String} : Text.ofString s = Text.ofString t ↔ s = t := by
  constructor
  · intro h
    have hs := Text.toString?_ofString s
    rw [h, Text.toString?_ofString] at hs
    exact (Option.some.inj hs).symm
  · rintro rfl
    rfl

namespace Member

theorem ofNumber?_number (m : Member) : ofNumber? m.enumeration m.number = some m := by
  have hrange : 0 ≤ (m.number : Int) ∧ (m.number : Int).toNat < m.enumeration.names.length :=
    ⟨Int.natCast_nonneg _, m.inRange⟩
  rw [ofNumber?, dif_pos hrange]
  rfl

theorem ofNumber?_eq_some {e : Enumeration} {n : Int} {m : Member} (h : ofNumber? e n = some m) :
    m.enumeration = e ∧ (m.number : Int) = n := by
  unfold ofNumber? at h
  split at h
  · rename_i hrange
    cases h
    exact ⟨rfl, Int.toNat_of_nonneg hrange.1⟩
  · cases h

/-- Members of one enumeration with one number are one member. -/
theorem eq_of_number {m m' : Member} (he : m.enumeration = m'.enumeration)
    (hn : m.number = m'.number) : m = m' := by
  cases m
  cases m'
  cases he
  cases hn
  rfl

theorem ofName?_eq_some {e : Enumeration} {name : String} {m : Member}
    (h : ofName? e name = some m) : m.enumeration = e ∧ m.name = name := by
  obtain ⟨i, hi, hm⟩ := Option.bind_eq_some_iff.mp h
  obtain ⟨hlt, hname, -⟩ := List.findIdx?_eq_some_iff_getElem.mp hi
  obtain ⟨rfl, hnumber⟩ := ofNumber?_eq_some hm
  have hindex : m.number = i := by exact_mod_cast hnumber
  subst hindex
  exact ⟨rfl, beq_iff_eq.mp hname⟩

theorem exists_ofName? {e : Enumeration} {name : String} (h : name ∈ e.names) :
    ∃ m, ofName? e name = some m := by
  have hall : ∀ name ∈ e.names, (ofName? e name).isSome = true := by
    cases e <;> decide
  exact Option.isSome_iff_exists.mp (hall name h)

end Member

namespace Parameter

theorem name_inj {p q : Parameter} : p.name = q.name ↔ p = q := by
  constructor
  · cases p <;> cases q <;> decide
  · rintro rfl
    rfl

@[simp] theorem isNamed_iff {p : Parameter} {name : Text} :
    p.isNamed name = true ↔ name = Text.ofString p.name := by
  rw [isNamed, beq_iff_eq, eq_comm]

theorem name_ne_op (p : Parameter) : Text.ofString p.name ≠ Text.ofString "op" := by
  rw [Ne, Text.ofString_inj]
  cases p <;> decide

end Parameter

namespace Operation

theorem mem_all (op : Operation) : op ∈ all := by
  cases op <;> decide

theorem name_inj {a b : Operation} : a.name = b.name ↔ a = b := by
  constructor
  · intro h
    have hall : ∀ a ∈ all, ∀ b ∈ all, a.name = b.name → a = b := by decide
    exact hall a (mem_all a) b (mem_all b) h
  · rintro rfl
    rfl

/-- Exactly the names of the operations are known. -/
theorem ofName?_eq_some_iff {name : Text} {op : Operation} :
    ofName? name = some op ↔ name = Text.ofString op.name := by
  constructor
  · intro h
    rw [ofName?, List.find?_eq_some_iff_append] at h
    exact (beq_iff_eq.mp h.1).symm
  · rintro rfl
    rw [ofName?, List.find?_eq_some_iff_append]
    obtain ⟨before, after, hall⟩ := List.append_of_mem (mem_all op)
    have hnodup : all.Nodup := by decide
    refine ⟨by simp, before, after, hall, ?_⟩
    intro other hother
    have hne : other ≠ op := by
      rintro rfl
      rw [hall] at hnodup
      exact (List.nodup_append.mp hnodup).2.2 _ hother _ List.mem_cons_self rfl
    simpa [Text.ofString_inj, name_inj] using hne

theorem parameters_nodup (op : Operation) : (op.fields.map (·.parameter)).Nodup := by
  cases op <;> decide

end Operation

namespace Fields

@[simp] theorem get?_nil (name : Text) : get? [] name = none := rfl

theorem get?_cons (entry : Text × Value) (rest : Fields) (name : Text) :
    get? (entry :: rest) name = if name = entry.1 then some entry.2 else get? rest name := by
  rw [get?, List.lookup_cons]
  by_cases h : name = entry.1
  · simp [h]
  · rw [if_neg h, beq_false_of_ne h]
    rfl

/-- Values changed under one name are changed for that name alone. -/
theorem get?_map_named (p : Parameter) (change : Value → Value) (fields : Fields) (name : Text) :
    get? (fields.map fun entry =>
      if p.isNamed entry.1 then (entry.1, change entry.2) else entry) name =
      if p.isNamed name then (fields.get? name).map change else fields.get? name := by
  induction fields with
  | nil => simp
  | cons entry rest ih =>
    rw [List.map_cons, get?_cons, get?_cons, ih]
    by_cases hname : name = entry.1
    · subst hname
      by_cases hp : p.isNamed entry.1 <;> simp [hp]
    · by_cases hp : p.isNamed entry.1 <;> simp [hp, hname]

/-- Under each name of fields that are related one by one there stand related values. -/
theorem get?_of_forall₂ {R : Text × Value → Text × Value → Prop}
    (hname : ∀ entry entry', R entry entry' → entry'.1 = entry.1) {fields fields' : Fields}
    (h : List.Forall₂ R fields fields') (name : Text) :
    Option.Rel (fun v v' => R (name, v) (name, v')) (fields.get? name) (fields'.get? name) := by
  induction h with
  | nil => exact Option.Rel.none
  | @cons entry entry' _ _ hentry _ ih =>
    rw [get?_cons, get?_cons, hname _ _ hentry]
    split
    · rename_i heq
      obtain ⟨key, v⟩ := entry
      obtain ⟨key', v'⟩ := entry'
      obtain rfl : key' = key := hname _ _ hentry
      obtain rfl : name = key' := heq
      exact Option.Rel.some hentry
    · exact ih

/-- Leaving entries of one name out does not matter to any other name. -/
theorem get?_filter_ne (fields : Fields) {name other : Text} (h : name ≠ other) :
    get? (fields.filter fun entry => entry.1 ≠ other) name = fields.get? name := by
  induction fields with
  | nil => rfl
  | cons entry rest ih =>
    by_cases ho : entry.1 = other
    · have hn : name ≠ entry.1 := by
        rintro rfl
        exact h ho
      rw [List.filter_cons_of_neg (by simpa using ho), ih, get?_cons, if_neg hn]
    · rw [List.filter_cons_of_pos (by simpa using ho), get?_cons, get?_cons, ih]

theorem mem_of_get? {fields : Fields} {name : Text} {v : Value}
    (h : fields.get? name = some v) : (name, v) ∈ fields := by
  induction fields with
  | nil => simp at h
  | cons entry rest ih =>
    rw [get?_cons] at h
    split at h
    · rename_i hname
      obtain ⟨key, w⟩ := entry
      cases h
      simp [hname]
    · exact List.mem_cons_of_mem _ (ih h)

theorem get?_set_self (fields : Fields) (name : Text) (v : Value) :
    (fields.set name v).get? name = some v := by
  unfold set
  split
  · rename_i hany
    induction fields with
    | nil => simp at hany
    | cons entry rest ih =>
      rw [List.map_cons, get?_cons]
      by_cases h : entry.1 = name
      · simp [h]
      · have hrest : rest.any (·.1 == name) = true := by simpa [h] using hany
        simpa [h, Ne.symm h] using ih hrest
  · rename_i hany
    induction fields with
    | nil => simp [get?_cons]
    | cons entry rest ih =>
      simp only [List.any_cons, Bool.or_eq_true, not_or] at hany
      have hne : name ≠ entry.1 := fun h => hany.1 (beq_iff_eq.mpr h.symm)
      rw [List.cons_append, get?_cons, if_neg hne]
      exact ih hany.2

theorem get?_set_of_ne (fields : Fields) {name other : Text} (v : Value) (h : other ≠ name) :
    (fields.set name v).get? other = fields.get? other := by
  unfold set
  split
  · rename_i hany
    clear hany
    induction fields with
    | nil => rfl
    | cons entry rest ih =>
      rw [List.map_cons, get?_cons, get?_cons, ih]
      by_cases he : entry.1 = name
      · simp [he, h]
      · simp [he]
  · rename_i hany
    clear hany
    induction fields with
    | nil => simp [get?_cons, h]
    | cons entry rest ih => rw [List.cons_append, get?_cons, get?_cons, ih]

/-- The names of fields do not depend on a value that is set. -/
theorem map_fst_set (fields : Fields) (name : Text) (v w : Value) :
    (fields.set name v).map (·.1) = (fields.set name w).map (·.1) := by
  unfold set
  split
  · rw [List.map_map, List.map_map]
    refine List.map_congr_left fun entry _ => ?_
    rw [Function.comp_apply, Function.comp_apply]
    split <;> rfl
  · rw [List.map_append, List.map_append]
    rfl

theorem mem_set {fields : Fields} {name : Text} {v : Value} {entry : Text × Value}
    (h : entry ∈ fields.set name v) : entry ∈ fields ∨ entry = (name, v) := by
  unfold set at h
  split at h
  · obtain ⟨old, hold, rfl⟩ := List.mem_map.mp h
    split
    · exact .inr rfl
    · exact .inl hold
  · simpa using h

end Fields

end ThermalLabel
