/-!
# Enumerations of the label language

The enumerations of `zpl_tokens`: colours, corner roundings, orientations and the like.  A member
is given by its number, which counts from zero in the order of the names.  Of a member nothing
else counts, so the names stand in tables.
-/
namespace ThermalLabel

inductive Enumeration where
  | color | roundness | orientation | justification | barcodeLabelPosition | barcodeMode
  deriving DecidableEq, Repr

namespace Enumeration

def title : Enumeration → String
  | color => "Color"
  | roundness => "Roundness"
  | orientation => "Orientation"
  | justification => "Justification"
  | barcodeLabelPosition => "BarcodeLabelPosition"
  | barcodeMode => "BarcodeMode"

def names : Enumeration → List String
  | color => ["BLACK", "WHITE"]
  | roundness =>
    ["NONE", "LEVEL1", "LEVEL2", "LEVEL3", "LEVEL4", "LEVEL5", "LEVEL6", "LEVEL7", "LEVEL8"]
  | orientation => ["NORMAL", "ROTATE90", "INVERT", "ROTATE270"]
  | justification => ["LEFT", "RIGHT", "AUTO", "CENTER"]
  | barcodeLabelPosition => ["TOP", "BOTTOM"]
  | barcodeMode => ["DEFAULT", "UCC_CASE_MODE", "AUTOMATIC_MODE", "UCC_EAN_MODE"]

def all : List Enumeration :=
  [color, roundness, orientation, justification, barcodeLabelPosition, barcodeMode]

end Enumeration

structure Member where
  enumeration : Enumeration
  number : Nat
  inRange : number < enumeration.names.length
  deriving DecidableEq, Repr

namespace Member

def name (m : Member) : String :=
  m.enumeration.names.get ⟨m.number, m.inRange⟩

/-- The member of a number, for the numbers in range. -/
def ofNumber? (e : Enumeration) (n : Int) : Option Member :=
  if h : 0 ≤ n ∧ n.toNat < e.names.length then some ⟨e, n.toNat, h.2⟩ else none

/-- The member of a name spelled exactly. -/
def ofName? (e : Enumeration) (name : String) : Option Member :=
  (e.names.findIdx? (· == name)).bind fun i => ofNumber? e i

def black : Member := ⟨.color, 0, by decide⟩
def unrounded : Member := ⟨.roundness, 0, by decide⟩
def upright : Member := ⟨.orientation, 0, by decide⟩
def left : Member := ⟨.justification, 0, by decide⟩
def center : Member := ⟨.justification, 3, by decide⟩
def top : Member := ⟨.barcodeLabelPosition, 0, by decide⟩

end Member

end ThermalLabel
