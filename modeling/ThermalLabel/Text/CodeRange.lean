/-!
# Ranges of code points

Classes of characters are tables of ranges, ends included.
-/
namespace ThermalLabel.Text

structure CodeRange where
  first : Nat
  last : Nat
  deriving DecidableEq, Repr

def inRanges (ranges : List CodeRange) (n : Nat) : Bool :=
  ranges.any fun r => r.first ≤ n && n ≤ r.last

end ThermalLabel.Text
