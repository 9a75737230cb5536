import ThermalLabel.Number.Decimal.Text
import ThermalLabel.Value.Integer

/-!
# Conversion to a decimal

What the resolution becomes in `get_dots_from_inches`.  A number is converted exactly and a text is
read.  A list of three gives the sign as zero or one, the digits of the coefficient and the
exponent; in place of the exponent a mark can say that the decimal is infinite or no number.
-/
namespace ThermalLabel

open Number (Decimal)

def readDecimal (s : Text) : Except Fault Decimal :=
  match Decimal.ofText? s with
  | some d => .ok d
  | none => .error (.arithmetic .invalidOperation)

/-- An integer that fits a word. -/
def fitting (w : Word) (n : Int) : Except Fault Int :=
  if w.holds n then .ok n else .error (.beyondWord w)

def tripleSign (v : Value) : Except Fault Bool :=
  match v.integer? with
  | none => .error (.malformedTriple .sign)
  | some n => do
    match ← fitting .long n with
    | 0 => return false
    | 1 => return true
    | _ => throw (.malformedTriple .sign)

/-- What stands in the third place. -/
inductive TripleScale where
  | exponent (e : Int)
  | infinite
  | nan (signaling : Bool)
  deriving DecidableEq, Repr

def tripleScale (v : Value) : Except Fault TripleScale :=
  match v with
  | .text s =>
    if s = "F" then .ok .infinite
    else if s = "n" then .ok (.nan false)
    else if s = "N" then .ok (.nan true)
    else .error (.malformedTriple .mark)
  | v => match v.integer? with
    | none => .error (.malformedTriple .exponent)
    | some n => (fitting .size n).map .exponent

def tripleDigit (v : Value) : Except Fault Nat :=
  match v.integer? with
  | none => .error (.malformedTriple .digits)
  | some n => do
    let d ← fitting .long n
    if 0 ≤ d ∧ d ≤ 9 then return d.toNat else throw (.malformedTriple .digits)

def tripleDigits : Value → Except Fault (List Nat)
  | .list items => items.mapM tripleDigit
  | _ => .error (.malformedTriple .digits)

/-- The decimal of a list of three; a finite one has to be representable. -/
def decimalOfTriple (items : List Value) : Except Fault Decimal :=
  match items with
  | [first, second, third] => do
    let negative ← tripleSign first
    let scale ← tripleScale third
    let coefficient := Number.ofDigits (← tripleDigits second)
    match scale with
    | .infinite => return .infinite negative
    | .nan signaling => return .nan negative signaling coefficient
    | .exponent e =>
      if Decimal.representable coefficient e then return .finite negative coefficient e
      else throw (.arithmetic .invalidOperation)
  | _ => .error (.malformedTriple .length)

def Value.toDecimal (v : Value) : Except Fault Decimal :=
  match v with
  | .text s => readDecimal s
  | .list items => decimalOfTriple items
  | v => match v.numeric? with
    | some d => .ok d
    | none => .error .wrongType

end ThermalLabel
