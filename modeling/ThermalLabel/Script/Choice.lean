import ThermalLabel.Script.Error
import ThermalLabel.Text.Lowercase

/-!
# Choices in scripts

`_norm` and `parse_enum`.  A member of an enumeration is given by itself, by its number, or by its
name in any case and with underscores and hyphens anywhere.  A number that no member has passes
unchanged.
-/
namespace ThermalLabel.Script

/-- What is compared when a name is looked up. -/
def plainName (s : Text) : Text :=
  Text.lower (s.filter fun c => c != .char '_' && c != .char '-')

def findName? (e : Enumeration) (name : Text) : Option Member :=
  (e.names.find? fun known : String => plainName known == plainName name).bind
    (Member.ofName? e)

def ofNumber (e : Enumeration) (n : Int) (v : Value) : Value :=
  match Member.ofNumber? e n with
  | some m => .member m
  | none => v

def choose (e : Enumeration) (v : Value) : Checked Value :=
  match v with
  | .member m => .ok (ofNumber e m.number v)
  | .integer n => .ok (ofNumber e n v)
  | .text s => match findName? e s with
    | some m => .ok (.member m)
    | none => refuseShowing v (.notMember e)
  | v => refuseShowing v (.notMember e)

end ThermalLabel.Script
