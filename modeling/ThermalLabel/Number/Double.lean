import ThermalLabel.Number.Decimal

/-!
# Double-precision numbers

A finite double is `(-1)^negative * significand * 2^exponent` with a significand of at most 53
bits and an exponent from -1074 to 971; the significand has all 53 bits unless the exponent is
the lowest.  All arithmetic is exact up to one final rounding, half to even.
-/
namespace ThermalLabel.Number

inductive Double where
  | finite (negative : Bool) (significand : Nat) (exponent : Int)
  | infinite (negative : Bool)
  | nan
  deriving DecidableEq, Repr

namespace Double

def lowestExponent : Int := -1074
def highestExponent : Int := 971
def hiddenBit : Nat := Nat.pow 2 52

def zero (negative : Bool) : Double :=
  .finite negative 0 lowestExponent

/-- The numerator and denominator of `num / den` counted in units of `2^exponent`. -/
def inUnits (num den : Nat) (exponent : Int) : Nat × Nat :=
  (num * Nat.pow 2 (-exponent).toNat, den * Nat.pow 2 exponent.toNat)

/-- The exponent that gives a positive quotient a significand of 53 bits, or the lowest one. -/
def unitExponent (num den : Nat) : Int :=
  let guess := (num.log2 : Int) - den.log2 - 52
  let (a, b) := inUnits num den guess
  max lowestExponent (if a / b < hiddenBit then guess - 1 else guess)

/-- The double nearest to `num / den`. -/
def ofRatio (negative : Bool) (num den : Nat) : Double :=
  if num = 0 then zero negative
  else
    let e := unitExponent num den
    let (a, b) := inUnits num den e
    let q := divEven a b
    let (q, e) := if q = 2 * hiddenBit then (hiddenBit, e + 1) else (q, e)
    if highestExponent < e then .infinite negative else .finite negative q e

/-- The double nearest to `coefficient * 10^exponent`.  Magnitudes far outside the range are
settled by their first digit's exponent. -/
def ofScientific (negative : Bool) (coefficient : Nat) (exponent : Int) : Double :=
  let first := exponent + digitCount coefficient
  if coefficient = 0 ∨ first < -330 then zero negative
  else if 310 < first then .infinite negative
  else ofRatio negative (coefficient * Nat.pow 10 exponent.toNat) (Nat.pow 10 (-exponent).toNat)

/-- The double nearest to an integer, if the integer is in range. -/
def ofInt? (n : Int) : Option Double :=
  match ofRatio (n < 0) n.natAbs 1 with
  | .infinite _ => none
  | x => some x

/-- The exact value in decimal. -/
def toDecimal : Double → Decimal
  | .finite s m e =>
    if 0 ≤ e then .finite s (m * Nat.pow 2 e.toNat) 0 else .finite s (m * Nat.pow 5 (-e).toNat) e
  | .infinite s => .infinite s
  | .nan => .nan false false 0

def isZero : Double → Bool
  | .finite _ m _ => m == 0
  | _ => false

def neg : Double → Double
  | .finite s m e => .finite (!s) m e
  | .infinite s => .infinite (!s)
  | .nan => .nan

def add (a b : Double) : Double :=
  match a, b with
  | .finite s m e, .finite s' m' e' =>
    let low := min e e'
    let x := signed s (m * Nat.pow 2 (e - low).toNat) + signed s' (m' * Nat.pow 2 (e' - low).toNat)
    let (num, den) := (x.natAbs * Nat.pow 2 low.toNat, Nat.pow 2 (-low).toNat)
    ofRatio (if x = 0 then s && s' else x < 0) num den
  | .infinite s, .infinite s' => if s = s' then .infinite s else .nan
  | .infinite s, .finite .. | .finite .., .infinite s => .infinite s
  | _, _ => .nan

end Double

end ThermalLabel.Number
