import Mathlib.Data.List.Basic
import ThermalLabel.Text.Split

/-!
# Pieces of a text

Marks tell pieces apart that hold none themselves, and a text without a mark is one piece.
-/
namespace ThermalLabel.Text

variable {α : Type} [DecidableEq α] {mark : α} {piece : List α}

theorem split_of_not_mem (h : mark ∉ piece) : split mark piece = [piece] := by
  induction piece with
  | nil => rfl
  | cons c rest ih =>
    rw [List.mem_cons, not_or] at h
    rw [split, if_neg (Ne.symm h.1), ih h.2]

theorem split_append_cons (h : mark ∉ piece) (rest : List α) :
    split mark (piece ++ mark :: rest) = piece :: split mark rest := by
  induction piece with
  | nil => simp [split]
  | cons c piece ih =>
    rw [List.mem_cons, not_or] at h
    rw [List.cons_append, split, if_neg (Ne.symm h.1), ih h.2]

/-- Pieces with a mark behind each of them are told apart by the marks. -/
theorem split_flatMap_mark {pieces : List (List α)} (h : ∀ piece ∈ pieces, mark ∉ piece) :
    split mark (pieces.flatMap (· ++ [mark])) = pieces ++ [[]] := by
  induction pieces with
  | nil => rfl
  | cons piece rest ih =>
    rw [List.forall_mem_cons] at h
    rw [List.flatMap_cons, List.append_assoc, List.singleton_append, split_append_cons h.1, ih h.2,
      List.cons_append]

theorem splitString_of_not_mem {mark : Char} {s : String} (h : mark ∉ s.toList) :
    splitString mark s = [s] := by
  rw [splitString, split_of_not_mem h, List.map_cons, List.map_nil, String.ofList_toList]

/-- A first piece without a mark, and what the rest is split into. -/
theorem splitString_append {mark : Char} {s : String} (h : mark ∉ s.toList) (rest : List Char) :
    splitString mark (s ++ String.ofList (mark :: rest)) =
      s :: splitString mark (String.ofList rest) := by
  rw [splitString, String.toList_append, String.toList_ofList, split_append_cons h, List.map_cons,
    String.ofList_toList, splitString, String.toList_ofList]

end ThermalLabel.Text
