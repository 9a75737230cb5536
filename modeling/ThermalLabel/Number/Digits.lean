/-!
# Decimal digits of a number

`digits` writes a number, `ofDigits` reads the values of its digits, the most significant first.
-/
namespace ThermalLabel.Number

def digits (n : Nat) : List Char :=
  Nat.toDigits 10 n

def digitCount (n : Nat) : Nat :=
  (digits n).length

/-- An integer of a sign and a magnitude. -/
def signed (negative : Bool) (n : Nat) : Int :=
  if negative then -n else n

def ofDigits (values : List Nat) : Nat :=
  values.foldl (fun n d => 10 * n + d) 0

end ThermalLabel.Number
