import ThermalLabel.Fault
import ThermalLabel.Value

/-!
# Conversion to an integer

What `roundness_token` and the last step of `get_dots_from_inches` do.  Numbers are cut towards zero
and texts are read as numerals.  An integer too long to be written is not formed.
-/
namespace ThermalLabel

open Number (Decimal Double)

def readNumeral (s : Text) : Except Fault Int :=
  match Number.readInteger s with
  | .ok n => .ok n
  | .error .malformed => .error (.notInteger s)
  | .error (.tooLong n) => .error (.longNumeral n)

/-- The integer part of a finite decimal. -/
def integerPart (negative : Bool) (coefficient : Nat) (exponent : Int) : Except Fault Int :=
  if 0 ≤ exponent then
    if (Number.maxDigits : Int) < Number.digitCount coefficient + exponent ∧ coefficient ≠ 0 then
      .error .longInteger
    else if coefficient = 0 then .ok 0
    else .ok (Number.signed negative (coefficient * Nat.pow 10 exponent.toNat))
  else if (Number.digitCount coefficient : Int) ≤ -exponent then .ok 0
  else .ok (Number.signed negative (coefficient / Nat.pow 10 (-exponent).toNat))

def decimalToInteger : Decimal → Except Fault Int
  | .finite s c e => integerPart s c e
  | .infinite _ => .error .infiniteDecimalToInteger
  | .nan .. => .error .decimalNaNToInteger

def doubleToInteger : Double → Except Fault Int
  | .nan => .error .doubleNaNToInteger
  | .infinite _ => .error .infiniteDoubleToInteger
  | x => decimalToInteger x.toDecimal

def Value.toInteger (v : Value) : Except Fault Int :=
  match v with
  | .double x => doubleToInteger x
  | .decimal d => decimalToInteger d
  | .text s => readNumeral s
  | v => match v.integer? with
    | some n => .ok n
    | none => .error .wrongType

end ThermalLabel
