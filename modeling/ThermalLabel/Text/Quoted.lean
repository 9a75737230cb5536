import ThermalLabel.Text.Hex
import ThermalLabel.Text.Printable

/-!
# Quoted texts

A quoted text stands between apostrophes, or between double quotes if it holds an apostrophe and
no double quote.  The quote in use and the backslash are escaped, line feed, carriage return and
tab have letters of their own, and every other code point that does not print is given in two,
four or eight hexadecimal digits.
-/
namespace ThermalLabel.Text

def quoteMark (s : Text) : Char :=
  if s.contains '\'' && !s.contains '"' then '"' else '\''

/-- A code point given by its number. -/
def codeEscape (c : CodePoint) : Text :=
  ofChars <|
    if c.toNat < 0x100 then '\\' :: 'x' :: hexDigits 2 c.toNat
    else if c.toNat < 0x10000 then '\\' :: 'u' :: hexDigits 4 c.toNat
    else '\\' :: 'U' :: hexDigits 8 c.toNat

def escapeQuoted (mark : Char) (c : CodePoint) : Text :=
  if c = mark ∨ c = '\\' then ['\\', c]
  else if c = '\n' then ['\\', 'n']
  else if c = '\r' then ['\\', 'r']
  else if c = '\t' then ['\\', 't']
  else if isPrintable c then [c] else codeEscape c

def quoted (s : Text) : Text :=
  let mark := quoteMark s
  .char mark :: s.flatMap (escapeQuoted mark) ++ [.char mark]

end ThermalLabel.Text
