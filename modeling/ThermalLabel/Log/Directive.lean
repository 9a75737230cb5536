import ThermalLabel.Log.Error
import ThermalLabel.Number.Double.Places
import ThermalLabel.Value.Integer
import ThermalLabel.Value.Text

/-!
# Directives of a message

A directive stands in a message for a value and says how the value is written: as text, as a
character, or as a number of some base or notation.  A written value has a sign, a mark of its base
and a body, and is filled up to the width that the directive asks for.  Values are those that JSON
can carry, and decimals and members.
-/
namespace ThermalLabel.Log

open Number (Double)

inductive Conversion where
  | text | quoted | escaped | character
  | decimal | octal
  | hexadecimal (capital : Bool)
  | fixed (capital : Bool)
  | exponential (capital : Bool)
  | general (capital : Bool)
  deriving DecidableEq, Repr

def Conversion.ofChar? : Char → Option Conversion
  | 's' => some .text
  | 'r' => some .quoted
  | 'a' => some .escaped
  | 'c' => some .character
  | 'd' | 'i' | 'u' => some .decimal
  | 'o' => some .octal
  | 'x' => some (.hexadecimal false)
  | 'X' => some (.hexadecimal true)
  | 'f' => some (.fixed false)
  | 'F' => some (.fixed true)
  | 'e' => some (.exponential false)
  | 'E' => some (.exponential true)
  | 'g' => some (.general false)
  | 'G' => some (.general true)
  | _ => none

structure Directive where
  left : Bool := false
  plus : Bool := false
  space : Bool := false
  alternate : Bool := false
  zero : Bool := false
  width : Nat := 0
  precision : Option Nat := none
  deriving DecidableEq, Repr

/-- A value that is about to be filled up. -/
structure Written where
  sign : Text := []
  mark : Text := []
  body : Text
  numeric : Bool := true
  deriving DecidableEq, Repr

/-- Blanks go on the side away from the text; zeros go between the sign of a number and its
body. -/
def Written.fill (d : Directive) (w : Written) : Text :=
  let front := w.sign ++ w.mark
  let missing := d.width - (front ++ w.body).length
  let filler (c : Char) : Text := List.replicate missing (.char c)
  if d.left then front ++ w.body ++ filler ' '
  else if d.zero && w.numeric then front ++ filler '0' ++ w.body
  else filler ' ' ++ front ++ w.body

def Directive.sign (d : Directive) (negative : Bool) : Text :=
  if negative then ['-'] else if d.plus then ['+'] else if d.space then [' '] else []

/-- Text is cut to the precision. -/
def Directive.textual (d : Directive) (s : Text) : Written :=
  { body := s.take (d.precision.getD s.length), numeric := false }

/-- An integer in some base, with at least as many digits as the precision. -/
def Directive.integral (d : Directive) (n : Int) (mark digits : List Char) : Written :=
  { sign := d.sign (n < 0)
    mark := if d.alternate then Text.ofChars mark else []
    body := Text.ofChars
      (List.replicate (d.precision.getD 0 - digits.length) '0' ++ digits) }

def capitals (capital : Bool) (s : List Char) : List Char :=
  if capital then s.map Char.toUpper else s

def Conversion.capital : Conversion → Bool
  | .hexadecimal capital | .fixed capital | .exponential capital | .general capital => capital
  | _ => false

/-- The text of a magnitude in one of the notations for real numbers. -/
def realBody (c : Conversion) (d : Directive) (m : Nat) (exponent : Int) : List Char :=
  let num := m * Nat.pow 2 exponent.toNat
  let den := Nat.pow 2 (-exponent).toNat
  let places := d.precision.getD 6
  match c with
  | .exponential _ => Double.exponentialText num den places d.alternate
  | .general _ => Double.generalText num den places d.alternate
  | .fixed _ => Double.fixedText num den places d.alternate
  | _ => []

def Directive.real (d : Directive) (c : Conversion) (x : Double) : Written :=
  let (negative, body) := match x with
    | .finite negative m e => (negative, realBody c d m e)
    | .infinite negative => (negative, ['i', 'n', 'f'])
    | .nan => (false, ['n', 'a', 'n'])
  { sign := d.sign negative, body := Text.ofChars (capitals c.capital body) }

/-- Code points outside seven bits are given by their numbers. -/
def escapedText (s : Text) : Text :=
  s.flatMap fun c => if c.toNat < 0x80 then [c] else Text.codeEscape c

/-- The code point that a value stands for: a text of one, or a number. -/
def codePointOf (v : Value) : Except Fault CodePoint :=
  match v with
  | .text [c] => .ok c
  | .text _ => .error .wrongType
  | v => match v.integer? with
    | none => .error .wrongType
    | some n =>
      if 0 ≤ n ∧ n < 0x110000 then .ok (.ofNat n.toNat) else .error .beyondCodePoints

/-- The integer part of a number. -/
def wholeOf (v : Value) : Except Fault Int :=
  match v with
  | .text _ => .error .wrongType
  | v => v.toInteger

def integerOf (v : Value) : Except Fault Int :=
  match v.integer? with
  | some n => .ok n
  | none => .error .wrongType

def realOf (v : Value) : Except Fault Double :=
  match v with
  | .double x => .ok x
  | v => match v.integer? with
    | none => .error .wrongType
    | some n => match Double.ofInt? n with
      | some x => .ok x
      | none => .error .beyondDouble

/-- The number of digits that an integer can be asked for. -/
def largestDigitCount : Nat := Nat.pow 2 31 - 4

def Directive.checkDigits (d : Directive) : Except Fault Unit :=
  if largestDigitCount < d.precision.getD 0 then .error .tooManyDigits else .ok ()

def Conversion.written (c : Conversion) (d : Directive) (v : Value) : Except Fault Written :=
  match c with
  | .text => return d.textual (← v.toText)
  | .quoted => return d.textual (← v.quoted)
  | .escaped => return d.textual (escapedText (← v.quoted))
  | .character => return { body := [← codePointOf v], numeric := false }
  | .decimal => do
    let n ← wholeOf v
    d.checkDigits
    if Number.writable n then return d.integral n [] (Number.digits n.natAbs)
    else throw .longInteger
  | .octal => do
    let n ← integerOf v
    d.checkDigits
    return d.integral n ['0', 'o'] (Nat.toDigits 8 n.natAbs)
  | .hexadecimal capital => do
    let n ← integerOf v
    d.checkDigits
    return d.integral n (capitals capital ['0', 'x'])
      (capitals capital (Nat.toDigits 16 n.natAbs))
  | c => return d.real c (← realOf v)

/-- The length up to which texts can be filled up. -/
def longestText : Nat := Nat.pow 2 40

/-- The text that takes the place of a directive. -/
def Conversion.apply (c : Conversion) (d : Directive) (v : Value) : Except Fault Text := do
  let w ← c.written d v
  if longestText < d.width then throw .tooLong else return w.fill d

end ThermalLabel.Log
