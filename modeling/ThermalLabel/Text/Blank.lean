import ThermalLabel.Text.CodePoint
import ThermalLabel.Text.CodeRange

/-!
# Blank characters

White space: the tab, line and page controls, the four information separators, the next-line
control and the separators of Unicode.  The zero-width characters are not blank.
-/
namespace ThermalLabel.Text

def blankRanges : List CodeRange :=
  [⟨0x9, 0xd⟩, ⟨0x1c, 0x20⟩, ⟨0x85, 0x85⟩, ⟨0xa0, 0xa0⟩, ⟨0x1680, 0x1680⟩, ⟨0x2000, 0x200a⟩,
    ⟨0x2028, 0x2029⟩, ⟨0x202f, 0x202f⟩, ⟨0x205f, 0x205f⟩, ⟨0x3000, 0x3000⟩]

def isBlank (c : CodePoint) : Bool :=
  inRanges blankRanges c.toNat

/-- The text without the code points of class `p` at its two ends. -/
def trim (p : CodePoint → Bool) (s : Text) : Text :=
  ((s.dropWhile p).reverse.dropWhile p).reverse

def strip (s : Text) : Text :=
  trim isBlank s

/-- The text holds nothing but white space. -/
def blank (s : Text) : Bool :=
  s.all isBlank

end ThermalLabel.Text
