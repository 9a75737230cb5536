import ThermalLabel.Log.Error
import ThermalLabel.Value

/-!
# Instants

The instant that `record.created` stands for, as a number of microseconds from the first of January
1970, in universal time.  It is written with milliseconds, which are cut and not rounded.  Years
from 1 to 9999 have a written form, apart from the very first day.  Years are counted from 1900 in
32 bits, and the seconds since 1970 in 64.  Other time zones are left out.
-/
namespace ThermalLabel.Log

open Number (Double)

structure Date where
  year : Int
  month : Nat
  day : Nat
  deriving DecidableEq, Repr

def daysPerEra : Int := 146097

/-- The years that are over on a day of an era of 400 years, counted from zero. -/
def yearOfEra (day : Nat) : Nat :=
  (day - day / 1460 + day / 36524 - day / 146096) / 365

/-- The date of the `n`th day.  Years begin in March here, so that a leap day is the last of its
year, until the month is known. -/
def Date.ofDay (n : Int) : Date :=
  let shifted := n + 719468
  let ofEra := (shifted % daysPerEra).toNat
  let year := yearOfEra ofEra
  let ofYear := ofEra - (365 * year + year / 4 - year / 100)
  let sinceMarch := (5 * ofYear + 2) / 153
  let month := if sinceMarch < 10 then sinceMarch + 3 else sinceMarch - 9
  { year := shifted / daysPerEra * 400 + year + (if month ≤ 2 then 1 else 0)
    month
    day := ofYear - (153 * sinceMarch + 2) / 5 + 1 }

def microsPerSecond : Nat := 1000000
def secondsPerDay : Int := 86400

/-- The microseconds of `m * 2^exponent` seconds.  The fraction of a second becomes a double
number of microseconds first, and that is rounded with a half going to the even number. -/
def magnitudeMicros (m : Nat) (exponent : Int) : Nat :=
  let unit := Nat.pow 2 (-exponent).toNat
  let whole := m * Nat.pow 2 exponent.toNat / unit
  let fraction := m * Nat.pow 2 exponent.toNat % unit
  match Double.ofRatio false (fraction * microsPerSecond) unit with
  | .finite _ k e =>
    whole * microsPerSecond + Number.divEven (k * Nat.pow 2 e.toNat) (Nat.pow 2 (-e).toNat)
  | _ => whole * microsPerSecond

/-- The instant that a number of seconds stands for. -/
def microsOf (seconds : Value) : Except Error Int :=
  match seconds with
  | .double (.finite negative m e) => .ok (Number.signed negative (magnitudeMicros m e))
  | .double (.infinite _) => .error .instantOutOfRange
  | .double .nan => .error .instantNotNumber
  | v => match v.integer? with
    | some n => .ok (n * microsPerSecond)
    | none => .error (.fault .wrongType)

/-- The date of an instant, as far as it can be told. -/
def calendarDate (seconds : Int) : Except Error Date :=
  if !Word.long.holds seconds then .error .instantOutOfRange
  else
    let date := Date.ofDay (seconds / secondsPerDay)
    if Word.short.holds (date.year - 1900) then .ok date else .error .noDate

/-- A year past the last one of 32 bits is told as one before the first. -/
def toldYear (year : Int) : Int :=
  year.bmod (Nat.pow 2 32)

/-- The date of an instant, if it can be written. -/
def dateOf (seconds : Int) : Except Error Date := do
  let date ← calendarDate seconds
  if date.year < 1 ∨ 9999 < date.year then throw (.yearOutOfRange (toldYear date.year))
  let before := Date.ofDay (seconds / secondsPerDay - 1)
  if before.year < 1 then throw (.yearOutOfRange before.year)
  return date

/-- A number with zeros in front up to a width. -/
def padded (width n : Nat) : String :=
  let ds := Number.digits n
  String.ofList (List.replicate (width - ds.length) '0' ++ ds)

def Date.text (d : Date) : String :=
  padded 4 d.year.toNat ++ "-" ++ padded 2 d.month ++ "-" ++ padded 2 d.day

def clockText (ofDay : Nat) : String :=
  padded 2 (ofDay / 3600) ++ ":" ++ padded 2 (ofDay / 60 % 60) ++ ":" ++ padded 2 (ofDay % 60)

/-- The written form of the instant that a number of seconds stands for. -/
def timestamp (created : Value) : Except Error Text := do
  let micros ← microsOf created
  let seconds := micros / microsPerSecond
  let millis := (micros % microsPerSecond).toNat / 1000
  let date ← dateOf seconds
  return Text.ofString (date.text ++ "T" ++ clockText (seconds % secondsPerDay).toNat ++ "." ++
    padded 3 millis ++ "+00:00")

end ThermalLabel.Log
