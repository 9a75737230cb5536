import ThermalLabel.Label.Config
import ThermalLabel.Script.Error

/-!
# Settings of a script

`_parse_config`.  A script may set any of the three settings; the others keep their defaults.  All
three are checked after that, so a default that is out of range counts as an error of the script.
-/
namespace ThermalLabel.Script

def settingNames : List Text :=
  ["dpi", "max_width", "suppress_separator"]

def isInteger : Value → Bool
  | .integer _ | .member _ => true
  | _ => false

def isPositive (v : Value) : Bool :=
  isInteger v && match v.integer? with
    | some n => decide (0 < n)
    | none => false

def isFlag : Value → Bool
  | .flag _ => true
  | _ => false

def unknownNames (fields : Fields) : List Text :=
  ((fields.map (·.1)).filter fun name => !settingNames.contains name).mergeSort
    Text.atMost

def requirePositive (name : String) (v : Value) : Checked Unit :=
  if isPositive v then .ok () else refuseShowing v (.settingNotPositive name)

def checkConfig (c : Config) : Checked Config := do
  requirePositive "dpi" c.dpi
  requirePositive "max_width" c.maxWidth
  if isFlag c.suppressSeparator then return c
  else refuseShowing c.suppressSeparator .settingNotFlag

/-- The defaults with the given fields in their place. -/
def override (fields : Fields) (defaults : Config) : Config :=
  { dpi := (fields.get? "dpi").getD defaults.dpi
    maxWidth := (fields.get? "max_width").getD defaults.maxWidth
    suppressSeparator := (fields.get? "suppress_separator").getD defaults.suppressSeparator }

/-- A block that counts as false stands for an empty one. -/
def readConfig (block : Value) (defaults : Config) : Checked Config :=
  if !block.truthy then checkConfig defaults
  else match block with
    | .object fields =>
      match unknownNames fields with
      | [] => checkConfig (override fields defaults)
      | names => refuse (.unknownSettings names)
    | _ => refuse .configNotObject

end ThermalLabel.Script
