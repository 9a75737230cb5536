import ThermalLabel.Number.Decimal
import ThermalLabel.Number.Integer
import ThermalLabel.Text.Lowercase

/-!
# Decimals as text

A decimal is written with all digits of its coefficient: in positional notation when the
exponent is not positive and the first digit stands no lower than the sixth place, else with an
exponent.  Reading is exact; it takes white space around the number, underscores anywhere and
digits of any script, and refuses exponents out of the range that can be represented.
-/
namespace ThermalLabel.Number.Decimal

/-- The largest exponent of a first digit that can be represented. -/
def exponentLimit : Int := 999999999999999999

/-- The lowest exponent of a last digit that can be represented. -/
def lowestExponent : Int := -1999999999999999997

def representable (coefficient : Nat) (exponent : Int) : Bool :=
  lowestExponent ≤ exponent && adjusted coefficient exponent ≤ exponentLimit

/-- What matters to a number, each digit as one of `0` to `9`. -/
def plainNumeral (s : Text) : Option Text :=
  ((Text.strip s).filter (· != .char '_')).mapM fun c =>
    if c.toNat < 128 then (if c.toNat = 0 then none else some c)
    else (Text.digitValue? c).map fun d => .ofNat (48 + d)

/-- The exponent after a coefficient; none written stands for zero. -/
def readExponent : Text → Option Int
  | [] => some 0
  | c :: rest =>
    if c = 'e' ∨ c = 'E' then
      let (negative, body) := takeSign rest
      match Text.takeDigits body with
      | ([], _) => none
      | (ds, []) => some (signed negative (ofDigits ds))
      | _ => none
    else none

def readFinite (negative : Bool) (s : Text) : Option Decimal :=
  let (whole, rest) := Text.takeDigits s
  let (fraction, rest) := match rest with
    | .char '.' :: rest => Text.takeDigits rest
    | rest => ([], rest)
  if whole.isEmpty && fraction.isEmpty then none
  else match readExponent rest with
    | none => none
    | some e =>
      let coefficient := ofDigits (whole ++ fraction)
      let exponent := e - fraction.length
      if representable coefficient exponent then some (.finite negative coefficient exponent)
      else none

def readPayload (negative signaling : Bool) (s : Text) : Option Decimal :=
  match Text.takeDigits s with
  | (ds, []) => some (.nan negative signaling (ofDigits ds))
  | _ => none

/-- A number that is spelled by a word, or else by digits. -/
def readPlain (s : Text) : Option Decimal :=
  let (negative, body) := takeSign s
  let word := Text.lower body
  if word = "inf" ∨ word = "infinity" then some (.infinite negative)
  else if Text.ofString "nan" <+: word then readPayload negative false (word.drop 3)
  else if Text.ofString "snan" <+: word then readPayload negative true (word.drop 4)
  else readFinite negative body

def ofText? (s : Text) : Option Decimal :=
  (plainNumeral s).bind readPlain

def signText (negative : Bool) : List Char :=
  if negative then ['-'] else []

/-- The digits with a point before the last `places` of them. -/
def pointText (ds : List Char) (places : Nat) : List Char :=
  if places = 0 then ds
  else if places < ds.length then
    ds.take (ds.length - places) ++ '.' :: ds.drop (ds.length - places)
  else '0' :: '.' :: List.replicate (places - ds.length) '0' ++ ds

/-- One digit before the point, the others behind it, and the exponent of the first. -/
def scientificText (ds : List Char) (exponent : Int) : List Char :=
  let first := exponent + ds.length - 1
  pointText ds (ds.length - 1) ++ 'E' :: (if first < 0 then '-' else '+') :: digits first.natAbs

def text : Decimal → List Char
  | .finite s c e =>
    let ds := digits c
    signText s ++
      if e ≤ 0 ∧ -6 ≤ adjusted c e then pointText ds (-e).toNat else scientificText ds e
  | .infinite s => signText s ++ "Infinity".toList
  | .nan s signaling payload =>
    signText s ++ (if signaling then "sNaN" else "NaN").toList ++
      if payload = 0 then [] else digits payload

end ThermalLabel.Number.Decimal
