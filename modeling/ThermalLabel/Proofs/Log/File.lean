import ThermalLabel.Log.File

/-!
# Log files over time

A file that is over is moved as a whole, so its lines are never changed.  They go only with the
oldest dated files, and only while as many dated files are left as the handler keeps.
-/
namespace ThermalLabel.Log

/-- A handler that keeps so many dated files, or more, or all of them. -/
def KeepsAtLeast (n : Nat) (kept : Int) : Prop :=
  kept ≤ 0 ∨ (n : Int) ≤ kept

namespace LogFile

variable {f : LogFile} {kept : Int} {since today : Day} {n : Nat}

/-! ### Files in order -/

/-- The dated files are in the order of their days, and the days are over. -/
structure Ordered (today : Day) (f : LogFile) : Prop where
  sorted : (f.dated.map (·.1)).Pairwise (· < ·)
  before : ∀ d ∈ f.dated, d.1 < f.day today
  past : f.day today ≤ today

theorem Ordered.empty (today : Day) : Ordered today {} :=
  ⟨.nil, nofun, Nat.le_refl _⟩

theorem Ordered.opened (h : f.Ordered today) : (f.opened today).Ordered today :=
  ⟨h.sorted, h.before, h.past⟩

theorem opened_of_touched (h : f.touched = some since) : f.opened today = f := by
  cases f
  cases h
  rfl

/-- As days pass, the days of files stay over. -/
theorem Ordered.later (h : f.Ordered today) (days : Nat) : f.Ordered (today + days) := by
  have hday : f.day today ≤ f.day (today + days) ∧ f.day (today + days) ≤ today + days := by
    have hpast := h.past
    unfold day at hpast ⊢
    cases htouched : f.touched with
    | none => exact ⟨Nat.le_add_right _ _, Nat.le_refl _⟩
    | some since =>
      rw [htouched] at hpast
      exact ⟨Nat.le_refl _, Nat.le_trans hpast (Nat.le_add_right _ _)⟩
  exact ⟨h.sorted, fun d hd => Nat.lt_of_lt_of_le (h.before d hd) hday.1, hday.2⟩

theorem Ordered.append (h : f.Ordered today) (line : Fields) :
    (f.append line today).Ordered today :=
  ⟨h.sorted, fun d hd => Nat.lt_of_lt_of_le (h.before d hd) h.past, Nat.le_refl _⟩

theorem newest_suffix (kept : Int) (dated : List (Day × List Fields)) :
    newest kept dated <:+ dated := by
  unfold newest
  split
  · exact List.drop_suffix _ _
  · exact List.suffix_rfl

/-- No dated file has the name of the day that is over now. -/
theorem Ordered.rotate_dated (h : f.Ordered today) (kept : Int) :
    (f.rotate kept (f.day today) today).dated =
      newest kept (f.dated ++ [(f.day today, f.lines)]) := by
  have hothers : f.dated.filter (·.1 != f.day today) = f.dated :=
    List.filter_eq_self.mpr fun d hd => bne_iff_ne.mpr (Nat.ne_of_lt (h.before d hd))
  rw [rotate, hothers]

theorem Ordered.rotate (h : f.Ordered today) (hover : f.day today < today) :
    (f.rotate kept (f.day today) today).Ordered today := by
  have hsuffix := newest_suffix kept (f.dated ++ [(f.day today, f.lines)])
  refine ⟨?_, fun d hd => ?_, Nat.le_refl _⟩
  · rw [h.rotate_dated kept]
    refine List.Pairwise.sublist (hsuffix.map _).sublist ?_
    rw [List.map_append, List.pairwise_append]
    refine ⟨h.sorted, List.pairwise_singleton _ _, ?_⟩
    simpa using fun day lines hd => h.before (day, lines) hd
  · rw [h.rotate_dated kept] at hd
    rcases List.mem_append.mp (hsuffix.subset hd) with hd | hd
    · exact Nat.lt_trans (h.before d hd) hover
    · rw [List.mem_singleton.mp hd]
      exact hover

theorem Ordered.turn (h : f.Ordered today) :
    (f.turn kept (f.day today) today).Ordered today := by
  unfold LogFile.turn
  split
  · exact h.rotate ‹_›
  · exact h

theorem Ordered.receive (h : f.Ordered today) (line : Option Fields) :
    (f.receive kept (f.day today) today line).Ordered today := by
  cases line with
  | none => exact h.turn
  | some fields => exact h.turn.append fields

/-- After a record the file is of the later one of its day and today. -/
theorem touched_receive (h : f.touched = some since) (hpast : since ≤ today)
    (line : Option Fields) :
    (f.receive kept since today line).touched = some (max since today) := by
  have hturn : (f.turn kept since today).touched = some (max since today) := by
    unfold turn
    split
    · exact congrArg some (Nat.max_eq_right hpast).symm
    · rename_i hnow
      rw [h, Nat.max_eq_left (Nat.le_of_not_lt hnow)]
  cases line with
  | none => exact hturn
  | some fields => exact congrArg some (Nat.max_eq_right hpast).symm

/-! ### What is kept -/

/-- The lines are gained at the end.  If any are lost, then at the front, and so many dated files
are left. -/
def Grows (n : Nat) (gained : List Fields) (before after : LogFile) : Prop :=
  ∃ lost, before.all ++ gained = lost ++ after.all ∧
    (n ≤ after.dated.length ∨ lost = [] ∧ before.dated.length ≤ after.dated.length)

theorem Grows.refl (n : Nat) (f : LogFile) : Grows n [] f f :=
  ⟨[], List.append_nil _, .inr ⟨rfl, Nat.le_refl _⟩⟩

theorem Grows.trans {gained more : List Fields} {middle after : LogFile}
    (h : Grows n gained f middle) (h' : Grows n more middle after) :
    Grows n (gained ++ more) f after := by
  obtain ⟨lost, hlines, hlost⟩ := h
  obtain ⟨lost', hlines', hlost'⟩ := h'
  refine ⟨lost ++ lost', ?_, ?_⟩
  · rw [← List.append_assoc, hlines, List.append_assoc, hlines', List.append_assoc]
  · rcases hlost' with hleft | ⟨rfl, hdated⟩
    · exact .inl hleft
    · rcases hlost with hleft | ⟨rfl, hdated'⟩
      · exact .inl (Nat.le_trans hleft hdated)
      · exact .inr ⟨rfl, Nat.le_trans hdated' hdated⟩

theorem grows_append (n : Nat) (f : LogFile) (line : Fields) (today : Day) :
    Grows n [line] f (f.append line today) :=
  ⟨[], by simp [all, append], .inr ⟨rfl, Nat.le_refl _⟩⟩

/-- A file that is over is not lost itself. -/
theorem Ordered.grows_rotate (h : f.Ordered today) (hkept : KeepsAtLeast n kept) :
    Grows n [] f (f.rotate kept (f.day today) today) := by
  have hdated := h.rotate_dated kept
  obtain ⟨lost, hlost⟩ := newest_suffix kept (f.dated ++ [(f.day today, f.lines)])
  refine ⟨lost.flatMap (·.2), ?_, ?_⟩
  · rw [all, all, hdated, ← List.append_assoc, ← List.flatMap_append, hlost]
    simp [LogFile.rotate]
  · rw [hdated]
    unfold newest at hlost ⊢
    split
    · rename_i hpositive
      rw [if_pos hpositive] at hlost
      by_cases hfew : (f.dated ++ [(f.day today, f.lines)]).length ≤ kept.toNat
      · have hnone : lost = [] := by
          rw [Nat.sub_eq_zero_of_le hfew, List.drop_zero] at hlost
          exact List.append_left_eq_self.mp hlost
        refine .inr ⟨by simp [hnone], ?_⟩
        rw [Nat.sub_eq_zero_of_le hfew, List.drop_zero, List.length_append]
        exact Nat.le_add_right _ _
      · left
        rcases hkept with hkept | hkept
        · omega
        · rw [List.length_drop]
          omega
    · rename_i hall
      rw [if_neg hall] at hlost
      refine .inr ⟨by simp [List.append_left_eq_self.mp hlost], ?_⟩
      rw [List.length_append]
      exact Nat.le_add_right _ _

theorem Ordered.grows_receive (h : f.Ordered today) (hkept : KeepsAtLeast n kept)
    (line : Option Fields) :
    Grows n line.toList f (f.receive kept (f.day today) today line) := by
  have hturn : Grows n [] f (f.turn kept (f.day today) today) := by
    unfold LogFile.turn
    split
    · exact h.grows_rotate hkept
    · exact .refl n f
  cases line with
  | none => exact hturn
  | some fields => exact hturn.trans (grows_append n _ fields today)

end LogFile

end ThermalLabel.Log
