import ThermalLabel.Log.Record
import ThermalLabel.Proofs.Label.Naming

/-!
# Extras of a record

Of extras with equal names the last one counts.  What is shown of them keeps out the fields that
every line has, and gives way to an exception and a stack.
-/
namespace ThermalLabel

namespace Fields

theorem get?_append (a b : Fields) (name : Text) :
    get? (a ++ b) name = (get? a name).or (get? b name) := by
  induction a with
  | nil => rfl
  | cons entry rest ih =>
    rw [List.cons_append, get?_cons, get?_cons, ih]
    split <;> rfl

theorem get?_eq_none_of_not_mem {fields : Fields} {name : Text} (h : name ∉ fields.map (·.1)) :
    fields.get? name = none := by
  cases hget : fields.get? name with
  | none => rfl
  | some v => exact absurd (List.mem_map.mpr ⟨_, mem_of_get? hget, rfl⟩) h

/-- Leaving names out does not matter to the others. -/
theorem get?_filter (fields : Fields) (keep : Text → Bool) (name : Text) :
    get? (fields.filter fun entry => keep entry.1) name =
      if keep name then fields.get? name else none := by
  induction fields with
  | nil => simp
  | cons entry rest ih =>
    by_cases hentry : keep entry.1 = true
    · rw [List.filter_cons, if_pos hentry, get?_cons, get?_cons, ih]
      by_cases hname : name = entry.1
      · simp [hname, hentry]
      · simp [hname]
    · rw [List.filter_cons, if_neg hentry, get?_cons, ih]
      by_cases hname : name = entry.1
      · simp [hname, hentry]
      · simp [hname]

/-- A new value never makes a second entry of one name. -/
theorem nodup_set {fields : Fields} (h : (fields.map (·.1)).Nodup) (name : Text) (v : Value) :
    ((fields.set name v).map (·.1)).Nodup := by
  unfold set
  split
  · have hnames : (fields.map fun f => if f.1 == name then (name, v) else f).map (·.1) =
        fields.map (·.1) := by
      rw [List.map_map]
      apply List.map_congr_left
      intro f _
      by_cases hf : f.1 = name <;> simp [hf]
    rw [hnames]
    exact h
  · rename_i hany
    rw [List.map_append, List.nodup_append]
    refine ⟨h, by simp, ?_⟩
    intro a ha b hb heq
    rw [List.map_singleton, List.mem_singleton] at hb
    obtain ⟨f, hf, rfl⟩ := List.mem_map.mp ha
    exact hany (List.any_eq_true.mpr ⟨f, hf, beq_iff_eq.mpr (heq.trans hb)⟩)

/-- Fields that are set one after another: the last one of a name stays. -/
theorem get?_foldl_set (extras done : Fields) (name : Text) :
    get? (extras.foldl (fun fields e => fields.set e.1 e.2) done) name =
      (get? extras.reverse name).or (done.get? name) := by
  induction extras generalizing done with
  | nil => rfl
  | cons e rest ih =>
    rw [List.foldl_cons, ih, List.reverse_cons, get?_append, Option.or_assoc]
    congr 1
    by_cases hname : name = e.1
    · subst hname
      rw [get?_set_self, get?_cons, if_pos rfl]
      rfl
    · rw [get?_set_of_ne done e.2 hname, get?_cons, if_neg hname]
      rfl

theorem mem_foldl_set {extras done : Fields} {entry : Text × Value}
    (h : entry ∈ extras.foldl (fun fields e => fields.set e.1 e.2) done) :
    entry ∈ done ∨ entry ∈ extras := by
  induction extras generalizing done with
  | nil => exact .inl h
  | cons e rest ih =>
    rcases ih h with hdone | hrest
    · rcases mem_set hdone with hold | rfl
      · exact .inl hold
      · exact .inr List.mem_cons_self
    · exact .inr (List.mem_cons_of_mem e hrest)

theorem nodup_foldl_set (extras : Fields) {done : Fields} (h : (done.map (·.1)).Nodup) :
    ((extras.foldl (fun fields e => fields.set e.1 e.2) done).map (·.1)).Nodup := by
  induction extras generalizing done with
  | nil => exact h
  | cons e rest ih => exact ih (nodup_set h e.1 e.2)

end Fields

namespace Log

/-! ### What is shown -/

theorem get?_shownExtras {extras : Fields} {name : Text} (hreserved : name ∉ reservedNames)
    (hcore : name ∉ coreNames) :
    Fields.get? (shownExtras extras) name = Fields.get? extras.reverse name := by
  have hkeep : (!reservedNames.contains name && !coreNames.contains name) = true := by
    simp [hreserved, hcore]
  rw [shownExtras, Fields.get?_filter _ fun name =>
    !reservedNames.contains name && !coreNames.contains name, if_pos hkeep, Fields.get?_foldl_set]
  simp

theorem mem_of_mem_shownExtras {extras : Fields} {entry : Text × Value}
    (h : entry ∈ shownExtras extras) : entry ∈ extras := by
  rcases Fields.mem_foldl_set (List.mem_filter.mp h).1 with hnil | h
  · exact absurd hnil List.not_mem_nil
  · exact h

theorem not_mem_coreNames_of_mem_shownExtras {extras : Fields} {entry : Text × Value}
    (h : entry ∈ shownExtras extras) : entry.1 ∉ coreNames := by
  have hkeep := (List.mem_filter.mp h).2
  simp only [Bool.and_eq_true, Bool.not_eq_true', List.contains_eq_mem, decide_eq_false_iff_not]
    at hkeep
  exact hkeep.2

theorem nodup_shownExtras (extras : Fields) : ((shownExtras extras).map (·.1)).Nodup := by
  have hnil : (([] : Fields).map (·.1)).Nodup := List.nodup_nil
  exact (Fields.nodup_foldl_set extras hnil).sublist (List.filter_sublist.map _)

/-! ### The part of a line behind the fields that every line has -/

variable {extras : Fields} {exception : Option Text} {stack : Value}

/-- An entry of the detail is an extra, the exception or the stack. -/
theorem mem_detail {entry : Text × Value} (h : entry ∈ detail extras exception stack) :
    entry ∈ shownExtras extras ∨
      (∃ text, exception = some text ∧ entry = (Text.ofString "exception", Value.text text)) ∨
      (stack.truthy = true ∧ entry = (Text.ofString "stack", stack)) := by
  have hexception : ∀ entry ∈ setText (shownExtras extras) "exception" exception,
      entry ∈ shownExtras extras ∨
        ∃ text, exception = some text ∧ entry = (Text.ofString "exception", Value.text text) := by
    intro entry hentry
    cases exception with
    | none => exact .inl hentry
    | some text =>
      rcases Fields.mem_set hentry with hold | rfl
      · exact .inl hold
      · exact .inr ⟨text, rfl, rfl⟩
  unfold detail at h
  dsimp only at h
  split at h
  · rename_i htruthy
    rcases Fields.mem_set h with hold | rfl
    · exact (hexception entry hold).imp_right .inl
    · exact .inr (.inr ⟨htruthy, rfl⟩)
  · exact (hexception entry h).imp_right .inl

theorem nodup_detail : ((detail extras exception stack).map (·.1)).Nodup := by
  have hexception : ((setText (shownExtras extras) "exception" exception).map (·.1)).Nodup := by
    cases exception with
    | none => exact nodup_shownExtras extras
    | some text => exact Fields.nodup_set (nodup_shownExtras extras) _ _
  unfold detail
  dsimp only
  split
  · exact Fields.nodup_set hexception _ _
  · exact hexception

theorem not_mem_coreNames_of_mem_detail {entry : Text × Value}
    (h : entry ∈ detail extras exception stack) : entry.1 ∉ coreNames := by
  rcases mem_detail h with h | ⟨text, -, rfl⟩ | ⟨-, rfl⟩
  · exact not_mem_coreNames_of_mem_shownExtras h
  · change Text.ofString "exception" ∉ coreNames
    decide
  · change Text.ofString "stack" ∉ coreNames
    decide

theorem get?_detail_exception {text : Text} (h : exception = some text) :
    (detail extras exception stack).get? "exception" = some (.text text) := by
  subst h
  have hne : Text.ofString "exception" ≠ Text.ofString "stack" := by decide
  unfold detail
  dsimp only
  split
  · rw [Fields.get?_set_of_ne _ stack hne]
    exact Fields.get?_set_self _ _ _
  · exact Fields.get?_set_self _ _ _

theorem get?_detail_stack (h : stack.truthy = true) :
    (detail extras exception stack).get? "stack" = some stack := by
  unfold detail
  rw [if_pos h]
  exact Fields.get?_set_self _ _ _

/-- Names other than those of the exception and the stack are extras. -/
theorem get?_detail_of_extra {name : Text} (hreserved : name ∉ reservedNames)
    (hcore : name ∉ coreNames) (hexception : name = "exception" → exception = none)
    (hstack : name = "stack" → stack.truthy = false) :
    (detail extras exception stack).get? name = Fields.get? extras.reverse name := by
  have hshown : (setText (shownExtras extras) "exception" exception).get? name =
      Fields.get? extras.reverse name := by
    cases exception with
    | none => exact get?_shownExtras hreserved hcore
    | some text =>
      have hne : name ≠ "exception" := fun h => absurd (hexception h) (by simp)
      exact (Fields.get?_set_of_ne _ _ hne).trans (get?_shownExtras hreserved hcore)
  unfold detail
  dsimp only
  split
  · rename_i htruthy
    have hne : name ≠ "stack" := by
      intro h
      rw [hstack h] at htruthy
      cases htruthy
    exact (Fields.get?_set_of_ne _ stack hne).trans hshown
  · exact hshown

end Log

end ThermalLabel
