import ThermalLabel.Number.Double
import ThermalLabel.Number.Integer

/-!
# Doubles as text

A double is written with the fewest digits that read back as it, and of those the nearest to
its value.  Positional notation, always with a point, serves first digits from the fourth
decimal place up to the sixteenth place before the point; the exponent has at least two digits.
-/
namespace ThermalLabel.Number.Double

/-- The exponent of the first digit of a positive `num / den`. -/
def firstDigit (num den : Nat) : Int :=
  let guess := (digitCount num : Int) - digitCount den
  if num * Nat.pow 10 (-guess).toNat < den * Nat.pow 10 guess.toNat then guess - 1 else guess

/-- The two neighbours of `num / den` among the decimals with `count` digits, the nearer first
and of two equally near ones the even one: coefficients over a common exponent. -/
def neighbours (num den count : Nat) : Nat × Nat × Int :=
  let e := firstDigit num den - count + 1
  let a := num * Nat.pow 10 (-e).toNat
  let b := den * Nat.pow 10 e.toNat
  let below := a / b
  if divEven a b = below then (below, below + 1, e) else (below + 1, below, e)

/-- The first neighbour, with ever more digits, that reads back as the given double. -/
def search (m : Nat) (exponent : Int) (num den : Nat) : Nat → Nat → Nat × Int
  | _, 0 => (m, exponent)
  | count, fuel + 1 =>
    let (near, far, e) := neighbours num den count
    if ofScientific false near e = .finite false m exponent then (near, e)
    else if ofScientific false far e = .finite false m exponent then (far, e)
    else search m exponent num den (count + 1) fuel

/-- The coefficient and exponent of the shortest decimal that reads back as the positive double
`m * 2^exponent`.  Seventeen digits are always enough. -/
def shortest (m : Nat) (exponent : Int) : Nat × Int :=
  search m exponent (m * Nat.pow 2 exponent.toNat) (Nat.pow 2 (-exponent).toNat) 1 17

/-- The digits without zeros at their end, which count in the exponent instead. -/
def dropZeros (ds : List Char) (exponent : Int) : List Char × Int :=
  let kept := (ds.reverse.dropWhile (· == '0')).reverse
  (kept, exponent + (ds.length - kept.length))

def positional (ds : List Char) (exponent : Int) : List Char :=
  if 0 ≤ exponent then ds ++ List.replicate exponent.toNat '0' ++ ['.', '0']
  else
    let places := (-exponent).toNat
    if places < ds.length then
      ds.take (ds.length - places) ++ '.' :: ds.drop (ds.length - places)
    else '0' :: '.' :: List.replicate (places - ds.length) '0' ++ ds

def twoDigits (n : Nat) : List Char :=
  if n < 10 then '0' :: digits n else digits n

def withExponent (ds : List Char) (first : Int) : List Char :=
  let mantissa := match ds with
    | d :: e :: rest => d :: '.' :: e :: rest
    | ds => ds
  mantissa ++ 'e' :: (if first < 0 then '-' else '+') :: twoDigits first.natAbs

def finiteText (m : Nat) (exponent : Int) : List Char :=
  if m = 0 then ['0', '.', '0']
  else
    let (coefficient, e) := shortest m exponent
    let (ds, e) := dropZeros (digits coefficient) e
    let first := e + ds.length - 1
    if -4 ≤ first ∧ first < 16 then positional ds e else withExponent ds first

def text : Double → List Char
  | .finite s m e => (if s then ['-'] else []) ++ finiteText m e
  | .infinite s => if s then ['-', 'i', 'n', 'f'] else ['i', 'n', 'f']
  | .nan => ['n', 'a', 'n']

end ThermalLabel.Number.Double
