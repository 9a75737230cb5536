import ThermalLabel.Number.Double.Text

/-!
# Doubles rounded to given digits

A positive number `num / den` is written with a given count of decimal places, in positional or
in exponential notation, or with a given count of digits in the notation that suits its
magnitude.  The exact value is rounded once, a half to the even digit.
-/
namespace ThermalLabel.Number.Double

/-- The digits of `num / den` rounded to `count` of them, and the exponent of the first. -/
def roundedDigits (num den count : Nat) : List Char × Int :=
  if num = 0 then (List.replicate count '0', 0)
  else
    let first := firstDigit num den
    let e := first - count + 1
    let q := divEven (num * Nat.pow 10 (-e).toNat) (den * Nat.pow 10 e.toNat)
    if q = Nat.pow 10 count then (digits (Nat.pow 10 (count - 1)), first + 1) else (digits q, first)

/-- A number of whole digits and places; without places it has a point only if asked for. -/
def pointed (whole places : List Char) (keepPoint : Bool) : List Char :=
  if places.isEmpty && !keepPoint then whole else whole ++ '.' :: places

def exponentText (first : Int) : List Char :=
  'e' :: (if first < 0 then '-' else '+') :: twoDigits first.natAbs

def fixedText (num den places : Nat) (keepPoint : Bool) : List Char :=
  let ds := digits (divEven (num * Nat.pow 10 places) den)
  let ds := List.replicate (places + 1 - ds.length) '0' ++ ds
  pointed (ds.take (ds.length - places)) (ds.drop (ds.length - places)) keepPoint

def exponentialText (num den places : Nat) (keepPoint : Bool) : List Char :=
  let (ds, first) := roundedDigits num den (places + 1)
  pointed (ds.take 1) (ds.drop 1) keepPoint ++ exponentText first

def withoutZeros (ds : List Char) : List Char :=
  (ds.reverse.dropWhile (· == '0')).reverse

/-- Positional from the fourth decimal place up to the last digit that is kept.  Zeros at the
end of the places go, unless the point is kept. -/
def generalText (num den count : Nat) (keepPoint : Bool) : List Char :=
  let count := max count 1
  let (ds, first) := roundedDigits num den count
  let shown (places : List Char) := if keepPoint then places else withoutZeros places
  if first < -4 ∨ (count : Int) ≤ first then
    pointed (ds.take 1) (shown (ds.drop 1)) keepPoint ++ exponentText first
  else if first < 0 then
    pointed ['0'] (shown (List.replicate (-first - 1).toNat '0' ++ ds)) keepPoint
  else
    let whole := first.toNat + 1
    pointed (ds.take whole) (shown (ds.drop whole)) keepPoint

end ThermalLabel.Number.Double
