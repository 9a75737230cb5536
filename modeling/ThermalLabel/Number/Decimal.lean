import ThermalLabel.Number.Digits
import ThermalLabel.Number.Rounding

/-!
# Decimal floating-point numbers

A finite decimal is `(-1)^negative * coefficient * 10^exponent`; the exponent belongs to it, so
`1` and `1.0` are two decimals of equal value.  Arithmetic works in a `Context`: results are
rounded half-even to its precision and refused above its largest exponent, while below the
smallest one they lose digits and at last become zero.  Of the signals only those are kept that end
a calculation, and of the operations those that `get_dots_from_inches` and sums ask for.
-/
namespace ThermalLabel.Number

inductive Decimal where
  | finite (negative : Bool) (coefficient : Nat) (exponent : Int)
  | infinite (negative : Bool)
  | nan (negative signaling : Bool) (payload : Nat)
  deriving DecidableEq, Repr

namespace Decimal

inductive Signal where
  | invalidOperation | overflow
  deriving DecidableEq, Repr

structure Context where
  precision : Nat
  maxExponent : Int
  minExponent : Int
  deriving DecidableEq, Repr

/-- Twenty-eight digits, exponents of up to six digits. -/
def working : Context := ⟨28, 999999, -999999⟩

/-- The exponent of the last digit of the smallest numbers. -/
def Context.tiniest (ctx : Context) : Int :=
  ctx.minExponent - ctx.precision + 1

def ofInt (n : Int) : Decimal :=
  .finite (n < 0) n.natAbs 0

def isNaN : Decimal → Bool
  | .nan .. => true
  | _ => false

def isSignaling : Decimal → Bool
  | .nan _ signaling _ => signaling
  | _ => false

def isFinite : Decimal → Bool
  | .finite .. => true
  | _ => false

def isZero : Decimal → Bool
  | .finite _ coefficient _ => coefficient == 0
  | _ => false

def neg : Decimal → Decimal
  | .finite s c e => .finite (!s) c e
  | .infinite s => .infinite (!s)
  | .nan s g p => .nan s g p

/-- The exponent of the first digit. -/
def adjusted (coefficient : Nat) (exponent : Int) : Int :=
  exponent + digitCount coefficient - 1

/-- The coefficient after dropping `shift` digits, rounded half-even. -/
def dropDigits (coefficient shift : Nat) : Nat :=
  if digitCount coefficient < shift then 0 else divEven coefficient (Nat.pow 10 shift)

/-- A coefficient of at most `precision` digits; one more digit can arise from a carry, and the
coefficient is then a power of ten. -/
def fitPrecision (precision : Nat) (coefficient : Nat) (exponent : Int) : Nat × Int :=
  let surplus := digitCount coefficient - precision
  let rounded := if surplus = 0 then coefficient else dropDigits coefficient surplus
  if precision < digitCount rounded then (rounded / 10, exponent + surplus + 1)
  else (rounded, exponent + surplus)

/-- The exact number `(-1)^negative * coefficient * 10^exponent` as a result in a context. -/
def round (ctx : Context) (negative : Bool) (coefficient : Nat) (exponent : Int) :
    Except Signal Decimal :=
  if coefficient = 0 then
    .ok (.finite negative 0 (max ctx.tiniest (min ctx.maxExponent exponent)))
  else if ctx.maxExponent < adjusted coefficient exponent then .error .overflow
  else if adjusted coefficient exponent < ctx.minExponent then
    if exponent < ctx.tiniest then
      .ok (.finite negative (dropDigits coefficient (ctx.tiniest - exponent).toNat) ctx.tiniest)
    else .ok (.finite negative coefficient exponent)
  else
    let (c, e) := fitPrecision ctx.precision coefficient exponent
    if ctx.maxExponent < adjusted c e then .error .overflow
    else .ok (.finite negative c e)

/-- What an operation makes of its first operand that is no number; a signaling one is refused. -/
def propagate (a b : Decimal) : Except Signal Decimal :=
  if a.isSignaling || b.isSignaling then .error .invalidOperation
  else if a.isNaN then .ok a else .ok b

def mul (ctx : Context) (a b : Decimal) : Except Signal Decimal :=
  match a, b with
  | .finite s c e, .finite s' c' e' => round ctx (s != s') (c * c') (e + e')
  | .infinite s, .infinite s' => .ok (.infinite (s != s'))
  | .infinite s, .finite s' c' _ | .finite s' c' _, .infinite s =>
    if c' = 0 then .error .invalidOperation else .ok (.infinite (s != s'))
  | a, b => propagate a b

/-- A number out of reach of the last digit that can survive next to `(c, e)` counts as one
unit just below that digit. -/
def raiseTail (ctx : Context) (c : Nat) (e : Int) (c' : Nat) (e' : Int) : Nat × Int :=
  let reach := min e (adjusted c e - ctx.precision) - 2
  if adjusted c' e' < reach then (1, reach) else (c', e')

/-- The exact sum of two finite numbers that are close enough to be aligned. -/
def sum (ctx : Context) (s : Bool) (c : Nat) (e : Int) (s' : Bool) (c' : Nat) (e' : Int) :
    Except Signal Decimal :=
  let low := min e e'
  let a := signed s (c * Nat.pow 10 (e - low).toNat)
  let b := signed s' (c' * Nat.pow 10 (e' - low).toNat)
  let negative := if a + b = 0 then s && s' else a + b < 0
  round ctx negative (a + b).natAbs low

/-- A number added to zero keeps its value and takes the lower exponent as far as the precision
allows. -/
def padded (ctx : Context) (s : Bool) (c : Nat) (e low : Int) : Except Signal Decimal :=
  let target := max (min e low) (adjusted c e - ctx.precision)
  if target < e then round ctx s (c * Nat.pow 10 (e - target).toNat) target else round ctx s c e

def add (ctx : Context) (a b : Decimal) : Except Signal Decimal :=
  match a, b with
  | .finite s c e, .finite s' c' e' =>
    if c = 0 ∧ c' = 0 then round ctx (s && s') 0 (min e e')
    else if c = 0 then padded ctx s' c' e' e
    else if c' = 0 then padded ctx s c e e'
    else if adjusted c' e' ≤ adjusted c e then
      let (c', e') := raiseTail ctx c e c' e'
      sum ctx s c e s' c' e'
    else
      let (c, e) := raiseTail ctx c' e' c e
      sum ctx s c e s' c' e'
  | .infinite s, .infinite s' => if s = s' then .ok (.infinite s) else .error .invalidOperation
  | .infinite s, .finite .. | .finite .., .infinite s => .ok (.infinite s)
  | a, b => propagate a b

/-- The nearest integer, a half going to the even one.  It must fit the precision. -/
def toIntegral (ctx : Context) : Decimal → Except Signal Decimal
  | .finite s c e =>
    if c = 0 then .ok (.finite s 0 0)
    else if (ctx.precision : Int) < digitCount c + e then .error .invalidOperation
    else if 0 ≤ e then .ok (.finite s (c * Nat.pow 10 e.toNat) 0)
    else .ok (.finite s (dropDigits c (-e).toNat) 0)
  | .infinite _ => .error .invalidOperation
  | .nan s g p => if g then .error .invalidOperation else .ok (.nan s g p)

/-- The order of two magnitudes, without writing out powers of ten that do not matter. -/
def compareMagnitude (c : Nat) (e : Int) (c' : Nat) (e' : Int) : Ordering :=
  if c = 0 ∨ c' = 0 then compare c c'
  else if adjusted c e = adjusted c' e' then
    compare (c * Nat.pow 10 (e - min e e').toNat) (c' * Nat.pow 10 (e' - min e e').toNat)
  else compare (adjusted c e) (adjusted c' e')

/-- The order of two decimals by value; nothing that is no number has a place in it. -/
def compare? (a b : Decimal) : Option Ordering :=
  match a, b with
  | .finite s c e, .finite s' c' e' =>
    if c = 0 ∧ c' = 0 then some .eq
    else match s && c != 0, s' && c' != 0 with
      | false, true => some .gt
      | true, false => some .lt
      | false, false => some (compareMagnitude c e c' e')
      | true, true => some (compareMagnitude c' e' c e)
  | .infinite s, .infinite s' => some (if s = s' then .eq else if s then .lt else .gt)
  | .infinite s, .finite .. => some (if s then .lt else .gt)
  | .finite .., .infinite s => some (if s then .gt else .lt)
  | _, _ => none

end Decimal

end ThermalLabel.Number
