import ThermalLabel.Number.Integer
import ThermalLabel.Text.Hex
import ThermalLabel.Value

/-!
# Reading JSON

What `json.loads` makes of a text.  A number without fraction and exponent is an integer of at most
`maxDigits` digits, any other number a double, possibly infinite; `NaN`, `Infinity` and `-Infinity`
are numbers as well.  A control character cannot stand in a text.  When a key occurs twice its last
value counts, at the place of its first.  Lists and objects may be nested up to a given number of
levels; a reader that meets one more level stops there, whatever follows.  Why a text is no JSON is
left out, for nobody asks.
-/
namespace ThermalLabel.Json

open Number (Double)

inductive ReadError where
  | malformed
  | tooDeep
  deriving DecidableEq, Repr

def orMalformed {α : Type} : Option α → Except ReadError α
  | some a => .ok a
  | none => .error .malformed

def isSpace (c : CodePoint) : Bool :=
  c == ' ' || c == '\t' || c == '\n' || c == '\r'

def skipSpace (s : Text) : Text :=
  s.dropWhile isSpace

def hexValue? (c : CodePoint) : Option Nat :=
  c.char?.bind Text.hexValue?

/-- The number that four hexadecimal digits give. -/
def hexUnit? (a b c d : CodePoint) : Option Nat := do
  let high := 16 * (← hexValue? a) + (← hexValue? b)
  return 256 * high + 16 * (← hexValue? c) + (← hexValue? d)

def isHighHalf (u : Nat) : Bool := 0xd800 ≤ u && u < 0xdc00
def isLowHalf (u : Nat) : Bool := 0xdc00 ≤ u && u < 0xe000

/-- The character of two halves. -/
def pairChar (high low : Nat) : CodePoint :=
  .ofNat (0x10000 + (high - 0xd800) * 1024 + (low - 0xdc00))

def shortEscape? (c : CodePoint) : Option Char :=
  match c with
  | .char '"' => some '"'
  | .char '\\' => some '\\'
  | .char '/' => some '/'
  | .char 'b' => some (Char.ofNat 8)
  | .char 'f' => some (Char.ofNat 12)
  | .char 'n' => some '\n'
  | .char 'r' => some '\r'
  | .char 't' => some '\t'
  | _ => none

def push (c : CodePoint) (read : Option (Text × Text)) : Option (Text × Text) :=
  read.map fun (cs, rest) => (c :: cs, rest)

/-- The contents of a text up to its closing quote, and what follows it.  Two escaped halves in a
row are one character; a half without the other stays one. -/
def readChars : Text → Option (Text × Text)
  | [] => none
  | .char '"' :: rest => some ([], rest)
  | .char '\\' :: .char 'u' :: a :: b :: c :: d :: rest =>
    match hexUnit? a b c d with
    | none => none
    | some u =>
      match rest with
      | .char '\\' :: .char 'u' :: a' :: b' :: c' :: d' :: rest' =>
        match hexUnit? a' b' c' d' with
        | none => none
        | some u' =>
          if isHighHalf u && isLowHalf u' then push (pairChar u u') (readChars rest')
          else push (.ofNat u)
            (readChars (.char '\\' :: .char 'u' :: a' :: b' :: c' :: d' :: rest'))
      | rest => push (.ofNat u) (readChars rest)
  | .char '\\' :: c :: rest => match shortEscape? c with
    | some e => push e (readChars rest)
    | none => none
  | c :: rest => if c = '\\' ∨ c.toNat < 32 then none else push c (readChars rest)

/-- The whole part of a number: a zero, or digits that do not begin with one. -/
def readWhole : Text → Option (List Nat × Text)
  | .char '0' :: rest => some ([0], rest)
  | s => match Text.takeDigits s with
    | ([], _) => none
    | (ds, rest) => some (ds, rest)

/-- The digits after a point; without a digit the point is not part of the number. -/
def readFraction : Text → List Nat × Text
  | .char '.' :: rest => match Text.takeDigits rest with
    | ([], _) => ([], .char '.' :: rest)
    | (ds, tail) => (ds, tail)
  | s => ([], s)

/-- The exponent of a number, if it has one. -/
def readExponent (s : Text) : Option Int × Text :=
  match s with
  | c :: rest =>
    if c = 'e' ∨ c = 'E' then
      let (negative, body) := Number.takeSign rest
      match Text.takeDigits body with
      | ([], _) => (none, s)
      | (ds, tail) => (some (Number.signed negative (Number.ofDigits ds)), tail)
    else (none, s)
  | [] => (none, [])

def readNumber (negative : Bool) (s : Text) : Option (Value × Text) := do
  let (whole, rest) ← readWhole s
  let (fraction, rest) := readFraction rest
  let (exponent, rest) := readExponent rest
  if fraction.isEmpty && exponent.isNone then
    if Number.maxDigits < whole.length then none
    else return (.integer (Number.signed negative (Number.ofDigits whole)), rest)
  else
    let coefficient := Number.ofDigits (whole ++ fraction)
    return (.double (Double.ofScientific negative coefficient
      (exponent.getD 0 - fraction.length)), rest)

/-- The values that are spelled by a word. -/
def wordValues : List (Text × Value) :=
  [("null", .null), ("true", .flag true), ("false", .flag false), ("NaN", .double .nan),
    ("Infinity", .double (.infinite false)), ("-Infinity", .double (.infinite true))]

def readWord (s : Text) : Option (Value × Text) :=
  (wordValues.find? fun entry => entry.1.isPrefixOf s).map fun (word, v) => (v, s.drop word.length)

/-- A value that is no list and no object. -/
def readLeaf (s : Text) : Option (Value × Text) :=
  match s with
  | .char '"' :: rest => (readChars rest).map fun (cs, rest) => (.text cs, rest)
  | s => match readWord s with
    | some answer => some answer
    | none => match s with
      | .char '-' :: rest => readNumber true rest
      | s => readNumber false s

/-- The key of a field up to the value. -/
def readKey (s : Text) : Option (Text × Text) :=
  match s with
  | .char '"' :: rest => do
    let (key, rest) ← readChars rest
    match skipSpace rest with
    | .char ':' :: rest => return (key, skipSpace rest)
    | _ => none
  | _ => none

mutual

/-- A value at the head of a text, with at most `levels` levels of lists and objects in it.  The
fuel bounds the calls. -/
def readValue : Nat → Nat → Text → Except ReadError (Value × Text)
  | 0, _, _ => .error .malformed
  | fuel + 1, levels, s =>
    match s, levels with
    | .char '[' :: _, 0 | .char '\x7b' :: _, 0 => .error .tooDeep
    | .char '[' :: rest, levels + 1 =>
      match skipSpace rest with
      | .char ']' :: rest => .ok (.list [], rest)
      | rest => (readItems fuel levels rest).map fun (items, rest) => (.list items, rest)
    | .char '\x7b' :: rest, levels + 1 =>
      match skipSpace rest with
      | .char '\x7d' :: rest => .ok (.object [], rest)
      | rest => (readFields fuel levels [] rest).map fun (fields, rest) => (.object fields, rest)
    | s, _ => orMalformed (readLeaf s)

/-- The items of a list up to its closing bracket. -/
def readItems : Nat → Nat → Text → Except ReadError (List Value × Text)
  | 0, _, _ => .error .malformed
  | fuel + 1, levels, s => do
    let (v, rest) ← readValue fuel levels s
    match skipSpace rest with
    | .char ']' :: rest => return ([v], rest)
    | .char ',' :: rest =>
      let (items, rest) ← readItems fuel levels (skipSpace rest)
      return (v :: items, rest)
    | _ => throw .malformed

/-- The fields of an object up to its closing brace, after those in `done`. -/
def readFields : Nat → Nat → Fields → Text → Except ReadError (Fields × Text)
  | 0, _, _, _ => .error .malformed
  | fuel + 1, levels, done, s => do
    let (key, rest) ← orMalformed (readKey s)
    let (v, rest) ← readValue fuel levels rest
    let fields := done.set key v
    match skipSpace rest with
    | .char '\x7d' :: rest => return (fields, rest)
    | .char ',' :: rest => readFields fuel levels fields (skipSpace rest)
    | _ => throw .malformed

end

/-- The value that a whole text spells with at most `levels` levels of nesting.  Every level takes
two calls. -/
def read (levels : Nat) (s : Text) : Except ReadError Value := do
  let (v, rest) ← readValue (2 * s.length + 1) levels (skipSpace s)
  if (skipSpace rest).isEmpty then return v else throw .malformed

end ThermalLabel.Json
