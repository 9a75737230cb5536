import ThermalLabel.Fault
import ThermalLabel.Number.Decimal.Text
import ThermalLabel.Number.Double.Text
import ThermalLabel.Value

/-!
# Values as text

`quoted` shows what a value is, as messages do: texts stand in quotes, decimals and members carry
the name of their kind.  `toText` is what a value contributes to a fragment: a text contributes
itself, a member its number.  The only obstacle is an integer with too many digits.
-/
namespace ThermalLabel.Value

open Number (Decimal Double)

def integerText (n : Int) : Except Fault Text :=
  if Number.writable n then .ok (Text.ofChars (Number.integerText n)) else .error .longInteger

def memberText (m : Member) : Text :=
  "<" ++ m.enumeration.title ++ "." ++ m.name ++ ": " ++ toString m.number ++ ">"

mutual

def quoted : Value → Except Fault Text
  | .null => .ok "None"
  | .flag b => .ok (if b then "True" else "False")
  | .integer n => integerText n
  | .double x => .ok (Text.ofChars x.text)
  | .decimal d => .ok (("Decimal('" : Text) ++ Text.ofChars d.text ++ "')")
  | .text s => .ok (Text.quoted s)
  | .member m => .ok (memberText m)
  | .list items => (quotedItems items).map fun parts => "[" ++ Text.join ", " parts ++ "]"
  | .object fields =>
    (quotedFields fields).map fun parts => "\x7b" ++ Text.join ", " parts ++ "\x7d"

def quotedItems : List Value → Except Fault (List Text)
  | [] => .ok []
  | v :: rest => do return (← quoted v) :: (← quotedItems rest)

def quotedFields : List (Text × Value) → Except Fault (List Text)
  | [] => .ok []
  | (key, v) :: rest => do
    let shown ← quoted v
    return (Text.quoted key ++ ": " ++ shown) :: (← quotedFields rest)

end

def toText : Value → Except Fault Text
  | .text s => .ok s
  | .member m => .ok (Text.ofNat m.number)
  | .decimal d => .ok (Text.ofChars d.text)
  | v => v.quoted

end ThermalLabel.Value
