import ThermalLabel.Value.Integer
import ThermalLabel.Value.Order
import ThermalLabel.Value.Text

/-!
# Tokens of the label language

`_lookup`, its tables and the functions from `color_token` to `font_orientation_token`.  Every
setting has a table of tokens, in the order of the members' numbers, and a token for the values that
are in no table.  A value stands for a member when it is a number equal to it.
-/
namespace ThermalLabel.Token

/-- The token of the number that a value equals. -/
def pick (table : List String) (fallback : String) (v : Value) : String :=
  match table.zipIdx.find? fun entry => v.isNumber entry.2 with
  | some (token, _) => token
  | none => fallback

def colors : List String := ["B", "W"]

/-- Turned by 270 degrees shares its letter with bottom-up barcodes. -/
def orientations : List String := ["N", "R", "I", "B"]

def barcodeModes : List String := ["N", "U", "A", "D"]

/-- Centred fields have no suffix; they get a block instead. -/
def justifications : List String := [",0", ",1", ",2"]

def color (v : Value) : String :=
  pick colors "B" v

def orientation (v : Value) : String :=
  pick orientations "N" v

def barcodeMode (v : Value) : String :=
  pick barcodeModes "N" v

/-- The rounding is written as its integer, in range or not. -/
def roundness (v : Value) : Except Fault Text := do
  Value.integerText (← v.toInteger)

def yesNo (v : Value) : String :=
  if v.truthy then "Y" else "N"

def textPosition (v : Value) : Except Fault String :=
  (v.is .top).map fun above => if above then "Y" else "N"

/-- What follows the origin of a field: a block over the whole width for centred text, else the
suffix of the justification. -/
def justification (v maxWidth : Value) : Except Fault Text := do
  if ← v.is .center then
    return "^FB" ++ (← maxWidth.toText) ++ ",1,0,C,0"
  else
    return pick justifications "" v

def fontOrientation (v : Value) : String :=
  "^AO" ++ orientation v

end ThermalLabel.Token
