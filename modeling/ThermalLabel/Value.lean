import ThermalLabel.Enumeration
import ThermalLabel.Number.Double
import ThermalLabel.Text.CodePoint

/-!
# Loosely typed values

Arguments of label operations and the contents of requests are values of these kinds: those that
JSON can carry, decimals, and the members of enumerations.  Members and the two truth values also
serve as integers.  Objects of other kinds are left to `Label/Objects`.
-/
namespace ThermalLabel

open Number (Decimal Double)

inductive Value where
  | null
  | flag (b : Bool)
  | integer (n : Int)
  | double (x : Double)
  | decimal (d : Decimal)
  | text (s : Text)
  | member (m : Member)
  | list (items : List Value)
  | object (fields : List (Text × Value))

abbrev Fields := List (Text × Value)

instance : Inhabited Value := ⟨.null⟩

namespace Fields

def get? (fields : Fields) (name : Text) : Option Value :=
  fields.lookup name

/-- Gives a field a value: a name that is taken keeps its place, a new one goes to the end. -/
def set (fields : Fields) (name : Text) (v : Value) : Fields :=
  if fields.any (·.1 == name) then fields.map fun f => if f.1 == name then (name, v) else f
  else fields ++ [(name, v)]

end Fields

namespace Value

/-- The value as an integer, for the kinds that are integers. -/
def integer? : Value → Option Int
  | flag b => some (if b then 1 else 0)
  | integer n => some n
  | member m => some m.number
  | _ => none

/-- The exact value of a number of any kind. -/
def numeric? : Value → Option Decimal
  | double x => some x.toDecimal
  | decimal d => some d
  | v => v.integer?.map Decimal.ofInt

/-- The value is a number equal to `n`. -/
def isNumber (v : Value) (n : Int) : Bool :=
  match v.integer? with
  | some m => m == n
  | none => match v.numeric? with
    | some d => d.compare? (Decimal.ofInt n) == some .eq
    | none => false

/-- Zero, the empty text, list and object, and the null value count as false. -/
def truthy : Value → Bool
  | null => false
  | flag b => b
  | integer n => n != 0
  | double x => !x.isZero
  | decimal d => !d.isZero
  | text s => !s.isEmpty
  | member m => m.number != 0
  | list items => !items.isEmpty
  | object fields => !fields.isEmpty

def isSignaling : Value → Bool
  | decimal d => d.isSignaling
  | _ => false

end Value

end ThermalLabel
