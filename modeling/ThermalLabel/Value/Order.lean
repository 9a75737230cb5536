import ThermalLabel.Fault
import ThermalLabel.Value

/-!
# Equality and order of values

Numbers of all kinds are compared by their exact value, texts by code point, lists item by item.
Values of different kinds are unequal and have no order.  A double that is no number is the same
item as itself, but has no place in an order.  A decimal that is no number cannot be ordered, and
a signaling one cannot even be tested for equality.
-/
namespace ThermalLabel.Value

open Number (Decimal Double)

/-- How one value stands to another: `none` where one of them is no number. -/
abbrev Standing := Except Fault (Option Ordering)

def compareNumbers (a b : Value) : Option Standing :=
  match a.integer?, b.integer? with
  | some m, some n => some (.ok (some (compare m n)))
  | _, _ => match a.numeric?, b.numeric? with
    | some x, some y =>
      if x.isNaN || y.isNaN then
        match a, b with
        | .decimal _, _ | _, .decimal _ => some (.error (.arithmetic .invalidOperation))
        | _, _ => some (.ok none)
      else some (.ok (x.compare? y))
    | _, _ => none

def equalNumbers (a b : Value) : Option (Except Fault Bool) :=
  match a.numeric?, b.numeric? with
  | some x, some y =>
    if a.isSignaling || b.isSignaling then some (.error (.arithmetic .invalidOperation))
    else some (.ok (x.compare? y == some .eq))
  | _, _ => none

mutual

/-- The values are the same as items of a list or an object. -/
def equal : Value → Value → Except Fault Bool
  | .null, .null => .ok true
  | .double .nan, .double .nan => .ok true
  | .text s, .text t => .ok (s == t)
  | .list items, .list others =>
    if items.length = others.length then equalItems items others else .ok false
  | .object fields, .object others =>
    if fields.length = others.length then equalFields fields others else .ok false
  | a, b => (equalNumbers a b).getD (.ok false)

def equalItems : List Value → List Value → Except Fault Bool
  | a :: rest, b :: others => do
    if ← equal a b then equalItems rest others else return false
  | [], [] => .ok true
  | _, _ => .ok false

def equalFields : List (Text × Value) → List (Text × Value) → Except Fault Bool
  | [], _ => .ok true
  | (key, a) :: rest, others =>
    match others.lookup key with
    | none => .ok false
    | some b => do if ← equal a b then equalFields rest others else return false

end

mutual

def order : Value → Value → Standing
  | .text s, .text t => .ok (some (Text.order s t))
  | .list items, .list others => orderItems items others
  | a, b => (compareNumbers a b).getD (.error .wrongType)

def orderItems : List Value → List Value → Standing
  | [], [] => .ok (some .eq)
  | [], _ :: _ => .ok (some .lt)
  | _ :: _, [] => .ok (some .gt)
  | a :: rest, b :: others => do
    if ← equal a b then orderItems rest others else order a b

end

def exceeds (a b : Value) : Except Fault Bool :=
  (order a b).map (· == some .gt)

/-- The value as an upper limit of lengths. -/
def limit (v : Value) : Except Fault (Nat → Bool) :=
  (order (.integer 0) v).map fun _ n =>
    match order (.integer n) v with
    | .ok (some .lt) | .ok (some .eq) => true
    | _ => false

/-- The value is the given member, or a number equal to it. -/
def is (v : Value) (m : Member) : Except Fault Bool :=
  if v.isSignaling then .error (.arithmetic .invalidOperation) else .ok (v.isNumber m.number)

end ThermalLabel.Value
