import ThermalLabel.Json.Reader
import ThermalLabel.Text.Blank
import ThermalLabel.Text.Lowercase
import ThermalLabel.Text.Octets

/-!
# Request bodies

What `request.get_json(silent=True)` reads.  A body counts as JSON by its media type alone.  It is
then read in the encoding that zeros among its first octets give away; without zeros one octet
stands for one unit, and a byte order mark at the start is passed over.  What is nested too deeply
is not read at all; how deep that is hangs on the room for calls, which is left open.
-/
namespace ThermalLabel.Http

/-- The media type before any parameters. -/
def mediaType (contentType : String) : Text :=
  Text.lower (Text.strip (Text.ofChars (contentType.toList.takeWhile (· != ';'))))

def isJsonType (contentType : String) : Bool :=
  let media := mediaType contentType
  media == "application/json" ||
    ((Text.ofString "application/").isPrefixOf media && (Text.ofString "+json").isSuffixOf media)

/-- The size of a unit in octets, and whether its highest octet comes first. -/
inductive Encoding where
  | octets
  | pairs (highFirst : Bool)
  | fours (highFirst : Bool)
  deriving DecidableEq, Repr

def encodingOf : List Nat → Encoding
  | 0 :: 0 :: _ :: _ :: _ => .fours true
  | 0 :: _ :: _ :: _ :: _ => .pairs true
  | _ :: 0 :: 0 :: 0 :: _ => .fours false
  | _ :: 0 :: _ :: _ :: _ => .pairs false
  | [0, _] => .pairs true
  | [_, 0] => .pairs false
  | _ => .octets

def number (highFirst : Bool) (unit : List Nat) : Nat :=
  (if highFirst then unit else unit.reverse).foldl (fun n b => 256 * n + b) 0

def pairUnits (highFirst : Bool) : List Nat → Option (List Nat)
  | [] => some []
  | [_] => none
  | a :: b :: rest => (pairUnits highFirst rest).map (number highFirst [a, b] :: ·)

def fourUnits (highFirst : Bool) : List Nat → Option (List Nat)
  | [] => some []
  | a :: b :: c :: d :: rest =>
    (fourUnits highFirst rest).map (number highFirst [a, b, c, d] :: ·)
  | _ => none

/-- The text of units, of which two can be halves of one character. -/
def pairText : List Nat → Text
  | u :: v :: rest =>
    if Json.isHighHalf u && Json.isLowHalf v then Json.pairChar u v :: pairText rest
    else .ofNat u :: pairText (v :: rest)
  | [u] => [.ofNat u]
  | [] => []

def fourText (units : List Nat) : Option Text :=
  if units.all (· < 0x110000) then some (units.map .ofNat) else none

def dropMark : List Char → List Char
  | c :: rest => if c.toNat = 0xfeff then rest else c :: rest
  | [] => []

/-- The text of a body. -/
def bodyText (body : List Char) : Option Text :=
  match encodingOf (Text.octets body) with
  | .octets => some (Text.ofChars (dropMark body))
  | .pairs highFirst => (pairUnits highFirst (Text.octets body)).map pairText
  | .fours highFirst => (fourUnits highFirst (Text.octets body)).bind fourText

/-- The value of a body that has no more levels of lists and objects than are given. -/
def readBody (levels : Nat) (body : String) : Except Json.ReadError Value :=
  match bodyText body.toList with
  | some text => Json.read levels text
  | none => .error .malformed

end ThermalLabel.Http
