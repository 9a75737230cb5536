import ThermalLabel.Fault
import ThermalLabel.Value

/-!
# Sums and differences of values

The sum that `write_text_at_with_wrap` forms with `+=`, and the difference that it goes back by.
Integers stay exact, a double makes the result a double, a decimal makes it a decimal rounded to
the working precision; doubles and decimals do not mix.  Texts are joined, and a list is
extended by the items of another, by the code points of a text or by the keys of an object.  The
extended list is a value of its own here; that the list itself is extended shows where it is held
in two places, which `Label/Store` is about.
-/
namespace ThermalLabel.Value

open Number (Decimal Double)

def toDouble : Value → Except Fault Double
  | .double x => .ok x
  | v => match v.integer? with
    | none => .error .wrongType
    | some n => match Double.ofInt? n with
      | none => .error .beyondDouble
      | some x => .ok x

/-- An operation on two numbers, given for integers, doubles and decimals. -/
def combine (onIntegers : Int → Int → Int) (onDoubles : Double → Double → Double)
    (onDecimals : Decimal → Decimal → Except Decimal.Signal Decimal) (a b : Value) :
    Except Fault Value :=
  match a.integer?, b.integer? with
  | some m, some n => .ok (.integer (onIntegers m n))
  | _, _ =>
    match a, b with
    | .double _, .decimal _ | .decimal _, .double _ => .error .wrongType
    | .double _, _ | _, .double _ => do return .double (onDoubles (← toDouble a) (← toDouble b))
    | _, _ => match a.numeric?, b.numeric? with
      | some x, some y => (fromArithmetic (onDecimals x y)).map .decimal
      | _, _ => .error .wrongType

def add (a b : Value) : Except Fault Value :=
  match a, b with
  | .text s, .text t => .ok (.text (s ++ t))
  | .list items, .list others => .ok (.list (items ++ others))
  | .list items, .text s => .ok (.list (items ++ s.map fun c => .text [c]))
  | .list items, .object fields => .ok (.list (items ++ fields.map fun f => .text f.1))
  | a, b => combine (· + ·) Double.add (Decimal.add Decimal.working) a b

def sub (a b : Value) : Except Fault Value :=
  combine (· - ·) (fun x y => x.add y.neg) (fun x y => Decimal.add Decimal.working x y.neg) a b

end ThermalLabel.Value
