import ThermalLabel.Text.CodePoint
import ThermalLabel.Text.Hex

/-!
# Escaped field text

`escape_field_hex`, whose two replacements, one after the other, come to one pass over the text.  In
hexadecimal mode a field gives a character by an underscore and the two digits of its code.  The
underscore itself and the space are written that way, all other code points stand as they are.  How
a printer reads a field is what `decode` says; the program never does it.
-/
namespace ThermalLabel.Escape

def encodePoint (c : CodePoint) : Text :=
  if c = '_' then ['_', '5', 'F']
  else if c = ' ' then ['_', '2', '0']
  else [c]

def encode (s : Text) : Text :=
  s.flatMap encodePoint

/-- Reads a field from left to right; an underscore takes its two digits with it. -/
def decode : Text → Option Text
  | [] => some []
  | .char '_' :: .char high :: .char low :: rest => do
    let h ← Text.hexValue? high
    let l ← Text.hexValue? low
    return .ofNat (16 * h + l) :: (← decode rest)
  | c :: rest => if c = '_' then none else (decode rest).map (c :: ·)

theorem encode_append (s t : Text) : encode (s ++ t) = encode s ++ encode t := by
  simp [encode]

end ThermalLabel.Escape
