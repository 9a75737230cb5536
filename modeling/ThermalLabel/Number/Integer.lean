import ThermalLabel.Number.Digits
import ThermalLabel.Text.Blank
import ThermalLabel.Text.Digit

/-!
# Integers as text

Integers of any size are written in decimal.  Reading takes white space around the numeral, a
sign, digits of any script, and single underscores between digits.  Neither direction handles
more than `maxDigits` digits.
-/
namespace ThermalLabel.Number

def maxDigits : Nat := 4300

inductive NumeralError where
  | malformed
  | tooLong (digits : Nat)
  deriving DecidableEq, Repr

/-- The information separators, though blank, are not skipped around a numeral. -/
def surroundsNumeral (c : CodePoint) : Bool :=
  Text.isBlank c && !(0x1c ≤ c.toNat && c.toNat ≤ 0x1f)

/-- The digits at the head of a text and what follows them.  An underscore stands between two
digits, which `afterDigit` keeps track of. -/
def scanDigits (afterDigit : Bool) : Text → Option (List Nat × Text)
  | [] => if afterDigit then some ([], []) else none
  | c :: rest =>
    if c = '_' then
      if afterDigit then scanDigits false rest else none
    else match Text.digitValue? c with
      | some d => (scanDigits true rest).map fun (ds, tail) => (d :: ds, tail)
      | none => if afterDigit then some ([], c :: rest) else none

/-- A sign, if there is one, and what follows it. -/
def takeSign : Text → Bool × Text
  | .char '-' :: rest => (true, rest)
  | .char '+' :: rest => (false, rest)
  | rest => (false, rest)

def readInteger (s : Text) : Except NumeralError Int :=
  let (negative, body) := takeSign (Text.trim surroundsNumeral s)
  match scanDigits false body with
  | none => .error .malformed
  | some (ds, rest) =>
    if maxDigits < ds.length then .error (.tooLong ds.length)
    else if rest.isEmpty then .ok (signed negative (ofDigits ds))
    else .error .malformed

def integerText (n : Int) : List Char :=
  if n < 0 then '-' :: digits n.natAbs else digits n.natAbs

/-- The number of digits is within what can be written. -/
def writable (n : Int) : Bool :=
  digitCount n.natAbs ≤ maxDigits

end ThermalLabel.Number
