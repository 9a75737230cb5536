import ThermalLabel.Proofs.Storage.Tree
import ThermalLabel.Proofs.Text.Split
import ThermalLabel.Template.Directory

/-!
# Listed and rendered templates

A directory lists its templates once each, in the order of code points, and whatever else in it
bears the name of a template.  A name without a slash leads to the entry of that name, so what is
listed can be rendered unless it is a directory.
-/
namespace ThermalLabel.Template

open Storage (Tree Path)

variable {t : Tree} {dir : Path} {name : String}

/-! ### The list -/

theorem mem_list :
    name ∈ list t dir ↔ isTemplateName name = true ∧ (t.get? (dir ++ [name])).isSome = true := by
  rw [list, List.mem_mergeSort, List.mem_filter, Tree.mem_names, and_comm]

theorem list_pairwise_le (t : Tree) (dir : Path) : (list t dir).Pairwise (· ≤ ·) := by
  have htrans (a b c : String) (hab : decide (a ≤ b) = true) (hbc : decide (b ≤ c) = true) :
      decide (a ≤ c) = true :=
    decide_eq_true (String.le_trans (of_decide_eq_true hab) (of_decide_eq_true hbc))
  have htotal (a b : String) : (decide (a ≤ b) || decide (b ≤ a)) = true := by
    simpa using String.le_total a b
  exact (List.pairwise_mergeSort htrans htotal _).imp of_decide_eq_true

/-- The list is in strict order: no name is listed twice. -/
theorem list_pairwise_lt (h : t.Distinct) (dir : Path) : (list t dir).Pairwise (· < ·) := by
  have hnodup : (list t dir).Nodup := by
    rw [list, (List.mergeSort_perm _ _).nodup_iff]
    exact (h.nodup_names dir).filter _
  refine (list_pairwise_le t dir).imp₂ (fun a b hle hne => ?_) hnodup
  exact String.not_le.mp fun hge => hne (String.le_antisymm hle hge)

/-! ### Names of templates -/

/-- A name with the suffix of a template is a step downwards. -/
theorem ne_of_isTemplateName (h : isTemplateName name = true) :
    name ≠ "" ∧ name ≠ "." ∧ name ≠ ".." := by
  refine ⟨?_, ?_, ?_⟩
  · rintro rfl
    exact absurd h (by decide +kernel)
  · rintro rfl
    exact absurd h (by decide +kernel)
  · rintro rfl
    exact absurd h (by decide +kernel)

theorem pathOf?_of_isTemplateName (h : isTemplateName name = true) (hslash : '/' ∉ name.toList) :
    pathOf? name = some [name] := by
  obtain ⟨hempty, hdot, hup⟩ := ne_of_isTemplateName h
  have hpath : Path.ofString name = [name] := by
    simp [Path.ofString, Text.splitString_of_not_mem hslash, hempty, hdot]
  simp [pathOf?, hpath, Ne.symm hup]

theorem find?_eq_some_iff (h : isTemplateName name = true) (hslash : '/' ∉ name.toList)
    {text : String} :
    find? t dir name = some text ↔ t.get? (dir ++ [name]) = some (.file text) := by
  rw [find?, pathOf?_of_isTemplateName h hslash]
  dsimp only
  split
  · rename_i found hfound
    simp [hfound]
  · rename_i hnot
    exact iff_of_false nofun (hnot text)

theorem render_eq_notFound_iff {config : Config} {context : Context} :
    render t dir name config context = .error .notFound ↔ find? t dir name = none := by
  unfold render
  split
  · rename_i hnone
    simp [hnone]
  · rename_i text htext
    split <;> simp [htext]

theorem mem_list_of_isDirectory (h : isTemplateName name = true)
    (hdirectory : t.isDirectory (dir ++ [name]) = true) : name ∈ list t dir := by
  rw [Tree.isDirectory, beq_iff_eq] at hdirectory
  rw [mem_list, hdirectory]
  exact ⟨h, rfl⟩

end ThermalLabel.Template
