import ThermalLabel.Log.Directive

/-!
# Messages

What `record.getMessage` makes of a message and its values.  A message without values is taken as it
is.  With values, each of its directives takes the next value, a doubled percent sign stands for
one, and in the end no value may be left.  A directive is a percent sign followed by flags, a width,
a precision after a point, a letter for a size that has no effect, and the letter of a conversion;
all but the last may be missing.  A star for the width or the precision takes a value too.  Where
one object stands for all values, a directive can ask for one of its fields by a key in brackets,
and nothing has to be used.
-/
namespace ThermalLabel.Log

/-- The values of a message. -/
inductive Values where
  | several (vs : List Value)
  /-- A value that stands for all of them. -/
  | single (v : Value)

namespace Values

/-- There is nothing to be put in. -/
def isEmpty : Values → Bool
  | several vs => vs.isEmpty
  | single v => !v.truthy

def pending : Values → List Value
  | several vs => vs
  | single v => [v]

/-- What keys are looked up in; a list takes part, although it has no keys. -/
def keyed? : Values → Option Value
  | single (.object fields) => some (.object fields)
  | single (.list items) => some (.list items)
  | _ => none

end Values

/-- Where in a directive the next code point stands. -/
inductive Stage where
  | outside | opened
  /-- Inside a key, with so many brackets open. -/
  | key (depth : Nat)
  | flags | width | starredWidth | point | precision | starredPrecision | sized
  deriving DecidableEq, Repr

/-- What has been made of the code points before `position`; the text so far and the key stand
back to front. -/
structure Scan where
  written : Text := []
  pending : List Value
  keyed : Option Value := none
  stage : Stage := .outside
  key : Text := []
  directive : Directive := {}
  position : Nat := 0

def largestWidth : Nat := Nat.pow 2 63 - 1
def largestPrecision : Nat := Nat.pow 2 31 - 1

namespace Scan

def ofValues (values : Values) : Scan :=
  { pending := values.pending, keyed := values.keyed? }

def put (s : Scan) (c : CodePoint) : Scan :=
  { s with written := c :: s.written, stage := .outside }

/-- The next value for a star, an integer that fits a word. -/
def takeStar (s : Scan) (w : Word) : Except Error (Int × Scan) :=
  match s.pending with
  | [] => .error (.fault .wrongType)
  | v :: rest => match v.integer? with
    | none => .error (.fault .wrongType)
    | some n => if w.holds n then .ok (n, { s with pending := rest })
      else .error (.fault (.beyondWord w))

/-- A negative width moves the text to the left.  The lowest one has no opposite and counts as
none. -/
def starWidth (s : Scan) : Except Error Scan := do
  let (n, s) ← s.takeStar .size
  let d := s.directive
  return { s with
    stage := .starredWidth
    directive := { d with width := n.natAbs % (largestWidth + 1), left := d.left || n < 0 } }

/-- A negative precision counts as zero. -/
def starPrecision (s : Scan) : Except Error Scan := do
  let (n, s) ← s.takeStar .short
  return { s with
    stage := .starredPrecision
    directive := { s.directive with precision := some n.toNat } }

def widthDigit (s : Scan) (digit : Nat) : Except Error Scan :=
  let width := 10 * s.directive.width + digit
  if largestWidth < width then .error .widthTooLarge
  else .ok { s with stage := .width, directive := { s.directive with width } }

def precisionDigit (s : Scan) (digit : Nat) : Except Error Scan :=
  let precision := 10 * s.directive.precision.getD 0 + digit
  if largestPrecision < precision then .error .precisionTooLarge
  else .ok { s with stage := .precision, directive := { s.directive with precision } }

def convert (s : Scan) (c : CodePoint) : Except Error Scan :=
  match s.pending with
  | [] => .error (.fault .wrongType)
  | v :: rest => match c.char?.bind Conversion.ofChar? with
    | none => .error (.unknownDirective c s.position)
    | some conversion => do
      let text ← liftFault (conversion.apply s.directive v)
      return { s with
        written := text.reverse ++ s.written, pending := rest, stage := .outside }

def size (s : Scan) (c : CodePoint) : Except Error Scan :=
  if c = 'h' ∨ c = 'l' ∨ c = 'L' then .ok { s with stage := .sized } else s.convert c

def point (s : Scan) (c : CodePoint) : Except Error Scan :=
  if c = '.' then
    .ok { s with stage := .point, directive := { s.directive with precision := some 0 } }
  else s.size c

def afterWidth (s : Scan) (c : CodePoint) : Except Error Scan :=
  match Text.asciiDigit? c with
  | some digit => s.widthDigit digit
  | none => s.point c

def afterPrecision (s : Scan) (c : CodePoint) : Except Error Scan :=
  match Text.asciiDigit? c with
  | some digit => s.precisionDigit digit
  | none => s.size c

def flag (s : Scan) (c : CodePoint) : Except Error Scan :=
  let d := s.directive
  let mark (d : Directive) : Except Error Scan := .ok { s with stage := .flags, directive := d }
  match c with
  | .char '-' => mark { d with left := true }
  | .char '+' => mark { d with plus := true }
  | .char ' ' => mark { d with space := true }
  | .char '#' => mark { d with alternate := true }
  | .char '0' => mark { d with zero := true }
  | .char '*' => s.starWidth
  | c => s.afterWidth c

/-- The value of a key becomes the only one that is left. -/
def closeKey (s : Scan) : Except Error Scan :=
  let key := s.key.reverse
  match s.keyed with
  | some (.object fields) => match fields.lookup key with
    | some v => .ok { s with pending := [v], stage := .flags }
    | none => .error (.unknownKey key)
  | _ => .error (.fault .wrongType)

/-- Brackets inside a key belong to it as long as they are balanced. -/
def inKey (s : Scan) (depth : Nat) (c : CodePoint) : Except Error Scan :=
  let further (depth : Nat) : Scan := { s with stage := .key depth, key := c :: s.key }
  if c = '(' then .ok (further (depth + 1))
  else if c = ')' then
    if depth = 1 then s.closeKey else .ok (further (depth - 1))
  else .ok (further depth)

def opened (s : Scan) (c : CodePoint) : Except Error Scan :=
  if c = '%' then .ok (s.put '%')
  else if c = '(' then
    if s.keyed.isNone then .error (.fault .wrongType)
    else .ok { s with stage := .key 1, key := [] }
  else s.flag c

def step (s : Scan) (c : CodePoint) : Except Error Scan :=
  match s.stage with
  | .outside => .ok (if c = '%' then { s with stage := .opened, directive := {} } else s.put c)
  | .opened => s.opened c
  | .key depth => s.inKey depth c
  | .flags => s.flag c
  | .width => s.afterWidth c
  | .starredWidth => s.point c
  | .point => if c = '*' then s.starPrecision else s.afterPrecision c
  | .precision => s.afterPrecision c
  | .starredPrecision => s.size c
  | .sized => s.convert c

def run (s : Scan) : Text → Except Error Scan
  | [] => .ok s
  | c :: rest => do
    let next ← s.step c
    run { next with position := s.position + 1 } rest

def finish (s : Scan) : Except Error Text :=
  match s.stage with
  | .outside =>
    if s.pending.isEmpty || s.keyed.isSome then .ok s.written.reverse
    else .error (.fault .wrongType)
  | .key _ => .error .unfinishedKey
  | _ => .error .unfinishedDirective

end Scan

/-- The text of a message with its values in place. -/
def messageText (message : Value) (values : Values) : Except Error Text := do
  let text ← liftFault message.toText
  if values.isEmpty then return text
  else (← Scan.run (.ofValues values) text).finish

end ThermalLabel.Log
