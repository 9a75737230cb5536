/-!
# Splitting a text

The pieces between the occurrences of a code point; a text without it is one piece.
-/
namespace ThermalLabel.Text

def split {α : Type} [DecidableEq α] (mark : α) : List α → List (List α)
  | [] => [[]]
  | c :: rest =>
    if c = mark then [] :: split mark rest
    else match split mark rest with
      | [] => [[c]]
      | piece :: pieces => (c :: piece) :: pieces

theorem split_ne_nil {α : Type} [DecidableEq α] (mark : α) (s : List α) : split mark s ≠ [] := by
  cases s with
  | nil => simp [split]
  | cons c rest =>
    unfold split
    split
    · simp
    · split <;> simp

/-- The pieces of a string. -/
def splitString (mark : Char) (s : String) : List String :=
  (split mark s.toList).map String.ofList

end ThermalLabel.Text
