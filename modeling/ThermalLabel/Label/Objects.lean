import ThermalLabel.Label.Document

/-!
# Labels over objects of any kind

The methods of `ZplGenerator` for arguments that need not be values.  What an object is stays open,
and so does what comes of it when the program uses it: an answer or an exception, at once or after
the object has changed itself, other objects or the rest of the world.  That is how `+=` extends a
list in place, wherever else the list is held.  The label keeps the objects that it is given, not
copies of them.

The program asks its questions in the order in which `ZplGenerator` and `zpl_tokens` do.  Questions
that follow one another with nothing between them can be one, as a comparison and the truth of its
answer are.  Making a label is left out, and so is reaching into its private fields.
-/
namespace ThermalLabel

/-- What the program does with the objects that it is given. -/
inductive Question (V : Type) where
  /-- Writes the object in a text. -/
  | text (v : V)
  /-- Shows the object. -/
  | wording (v : V)
  | truth (v : V)
  | is (v : V) (m : Member)
  /-- Looks the object up in a table. -/
  | entry (table : List String) (v : V)
  /-- Writes the integer of the object. -/
  | whole (v : V)
  | length (v : V)
  | atMost (n : Nat) (limit : V)
  | exceeds (v limit : V)
  | escaped (v : V)
  | stripped (v : V)
  | words (v : V)
  | item (words : V) (n : Nat)
  | sum (v w : V)
  /-- A sum that may change the first object itself. -/
  | extended (v w : V)
  | difference (v w : V)
  | dots (dpi inches : V)
  | notice (lowest : V) (dropped : Int)

/-- The kind of answer to a question. -/
abbrev Question.Reply {V : Type} : Question V → Type
  | text _ | wording _ | whole _ => Text
  | truth _ | is .. | atMost .. | exceeds .. => Bool
  | entry .. => Option String
  | length _ => Nat
  | notice .. => Unit
  | escaped _ | stripped _ | words _ | item .. | sum .. | extended .. | difference .. | dots .. => V

structure Settings (V : Type) where
  dpi : V
  maxWidth : V
  suppressSeparator : V

structure Label (V : Type) where
  settings : Settings V
  fragments : List V := []

def Label.append {V : Type} (l : Label V) (added : List V) : Label V :=
  { l with fragments := l.fragments ++ added }

/-- A label and the world around it. -/
structure Scene (W V : Type) where
  world : W
  label : Label V

/-- Why a call does not return. -/
inductive Stop (E : Type) where
  | raised (e : E)
  /-- A loop has not come to its end within the passes that are looked at. -/
  | unfinished
  deriving DecidableEq

/-- A part of the program: it changes the scene, whether it comes to a result or not. -/
def Act (W E V α : Type) : Type :=
  Scene W V → Except (Stop E) α × Scene W V

namespace Act

variable {W E V α β : Type}

def bind (act : Act W E V α) (next : α → Act W E V β) : Act W E V β := fun s =>
  match act s with
  | (.ok a, s) => next a s
  | (.error stop, s) => (.error stop, s)

instance : Monad (Act W E V) where
  pure a := fun s => (.ok a, s)
  bind := Act.bind

def stop (reason : Stop E) : Act W E V α := fun s => (.error reason, s)

/-- The label as it is now. -/
def label : Act W E V (Label V) := fun s => (.ok s.label, s)

/-- Puts objects behind the fragments of the label. -/
def write (added : List V) : Act W E V Unit := fun s =>
  (.ok (), { s with label := s.label.append added })

end Act

/-- The objects that there are in a world, and what they do when they are asked. -/
structure Objects (W E V : Type) where
  /-- The objects that the program makes itself. -/
  own : Value → V
  isNull : V → Bool
  ask : (q : Question V) → Scene W V → Except E q.Reply × Scene W V
  /-- A call has arguments that do not fit its fields. -/
  misfit : E

/-- What a call returns. -/
inductive Returned (V : Type) where
  /-- The label itself. -/
  | label
  /-- The label and the position of the last line; with it stand the words of the lines that were
  written, which are not returned. -/
  | wrapped (y : V) (lines : List (List V))
  | text (s : Text)
  | settings (s : Settings V)
  | object (v : V)

namespace Objects

variable {W E V : Type} (O : Objects W E V)

def question (q : Question V) : Act W E V q.Reply := fun s =>
  match O.ask q s with
  | (.ok reply, s) => (.ok reply, s)
  | (.error e, s) => (.error (.raised e), s)

/-! ### Texts -/

def literal (s : String) : Act W E V Text :=
  return Text.ofString s

def text (v : V) : Act W E V Text :=
  O.question (.text v)

/-- Pieces of a text, written one after another. -/
def joined : List (Act W E V Text) → Act W E V Text
  | [] => return []
  | piece :: rest => do
    let s ← piece
    return s ++ (← joined rest)

def origin (x y : V) : List (Act W E V Text) :=
  [literal "^FO", O.text x, literal ",", O.text y]

def fieldData (v : V) : List (Act W E V Text) :=
  [literal "^FD", O.text v]

def closing : List (Act W E V Text) :=
  [literal fieldEnd]

/-- The token of an object, or that of the objects that are in no table. -/
def token (table : List String) (fallback : String) (v : V) : Act W E V Text := do
  return Text.ofString ((← O.question (.entry table v)).getD fallback)

def yesNo (v : V) : Act W E V Text := do
  return if ← O.question (.truth v) then "Y" else "N"

def textPosition (v : V) : Act W E V Text := do
  return if ← O.question (.is v .top) then "Y" else "N"

def justification (v : V) : Act W E V Text := do
  if ← O.question (.is v .center) then
    return "^FB" ++ (← O.text (← Act.label).settings.maxWidth) ++ ",1,0,C,0"
  else O.token Token.justifications "" v

def fontOrientation (v : V) : Act W E V Text := do
  return "^AO" ++ (← O.token Token.orientations "N" v)

def boxField (width height thickness color roundness : V) : List (Act W E V Text) :=
  [literal "^GB", O.text width, literal ",", O.text height, literal ",", O.text thickness,
    literal ",", O.token Token.colors "B" color, literal ",", O.question (.whole roundness)]

def textField (orientation justification x y v : V) : Act W E V Text := do
  let escaped ← O.question (.escaped v)
  let block ← O.justification justification
  let font ← O.fontOrientation orientation
  let left := if ← O.question (.is justification .center) then O.own (.integer 0) else x
  joined [literal "^FO", O.text left, literal ",", O.text y, return block, return font,
    literal "^FH^FD", O.text escaped, literal fieldEnd]

def underline (length c1 c2 : V) : List (Act W E V Text) :=
  [literal "^GB", O.text length, literal ",", O.text c1, literal ",", O.text c2]

def barcodeField (a : Parameter → V) : List (Act W E V Text) :=
  [literal "^BC", O.token Token.orientations "N" (a .orientation), literal ",",
    O.text (a .height), literal ",", O.yesNo (a .printText), literal ",",
    O.textPosition (a .textPosition), literal ",", O.yesNo (a .useUccCheckDigit), literal ",",
    O.token Token.barcodeModes "N" (a .mode)]

def codeText (data : V) : Act W E V Text := do
  O.text (← O.question (.sum (O.own (.text "LA,")) data))

/-! ### Operations -/

/-- Adds one fragment, once its text is complete. -/
def one (text : Act W E V Text) : Act W E V (Returned V) := do
  let s ← text
  Act.write [O.own (.text s)]
  return .label

/-- Adds fragments that are there already. -/
def done (fragments : List V) : Act W E V (Returned V) := do
  Act.write fragments
  return .label

def boxAt (x y width height thickness color roundness : V) : Act W E V (Returned V) :=
  O.one (joined (O.origin x y ++ O.boxField width height thickness color roundness ++ closing))

/-- Where the loop over the words of a text stands: the next word, the line that is being filled,
with the words in it and the room that they take, its position, and the lines that were written. -/
structure Filling (V : Type) where
  next : Nat
  line : V
  taken : List V
  length : Nat
  y : V
  lines : List (List V)

namespace Filling

/-- An empty line at a position. -/
def start (y : V) (next : Nat) (lines : List (List V)) : Filling V where
  next
  line := O.own (.text [])
  taken := []
  length := 0
  y
  lines

def accept (f : Filling V) (word line : V) (length : Nat) : Filling V :=
  { f with next := f.next + 1, line, taken := f.taken ++ [word], length }

/-- The lines with the one that is being filled. -/
def allLines (f : Filling V) : List (List V) :=
  f.lines ++ [f.taken]

end Filling

/-- Writes a line where it stands. -/
def writeLine (a : Parameter → V) (y line : V) : Act W E V (Returned V) :=
  O.one (O.textField (a .orientation) (a .justification) (a .x) y line)

/-- Writes the line and goes on below it, or ends if there is no room below: the words from the next
one on are dropped, and the position falls back to the last line. -/
def moveDown (a : Parameter → V) (words : V) (f : Filling V) (goOn : V → Act W E V (Returned V)) :
    Act W E V (Returned V) := do
  let _ ← O.writeLine a f.y f.line
  let y ← O.question (.extended f.y (a .lineInterval))
  if ← O.question (.exceeds y (a .maxY)) then
    let count ← O.question (.length words)
    O.question (.notice (a .maxY) (count - f.next))
    return .wrapped (← O.question (.difference y (a .lineInterval))) f.allLines
  else goOn y

/-- The loop of a wrapped text.  A pass takes a word into the line or moves down to a new one; when
no word is left, the last line is written. -/
def fill (a : Parameter → V) (words : V) : Nat → Filling V → Act W E V (Returned V)
  | 0, _ => Act.stop .unfinished
  | passes + 1, f => do
    if f.next < (← O.question (.length words)) then
      let word ← O.question (.item words f.next)
      let length := f.length + ((← O.question (.length word)) + 1)
      let fits ← O.question (.atMost length (a .wrap))
      if ← (if fits then return true else return !(← O.question (.truth f.line))) then
        let spaced ← O.question (.sum word (O.own (.text " ")))
        let line ← O.question (.extended f.line spaced)
        fill a words passes (f.accept word line length)
      else
        O.moveDown a words f fun y => fill a words passes (.start O y f.next f.allLines)
    else
      let _ ← O.writeLine a f.y f.line
      return .wrapped f.y f.allLines

/-- Nothing is written for nothing or for blanks. -/
def isBlank (v : V) : Act W E V Bool :=
  if O.isNull v then return true
  else do return !(← O.question (.truth (← O.question (.stripped v))))

def wrapped (passes : Nat) (a : Parameter → V) : Act W E V (Returned V) := do
  if ← O.isBlank (a .value) then return .wrapped (a .y) []
  else
    let length ← O.question (.length (a .value))
    if ← O.question (.atMost length (a .wrap)) then
      let _ ← O.writeLine a (a .y) (a .value)
      return .wrapped (a .y) [[a .value]]
    else
      let words ← O.question (.words (a .value))
      O.fill a words passes (.start O (a .y) 0 [])

def operate (passes : Nat) (a : Parameter → V) : Operation → Act W E V (Returned V)
  | .start => done [O.own (.text "^XA")]
  | .finish => done [O.own (.text "~JSN"), O.own (.text "^XZ")]
  | .raw => done [a .value]
  | .reversePrint => done [O.own (.text "^FR")]
  | .setFont => O.one (joined [literal "^CF", O.text (a .font), literal ",", O.text (a .height)])
  | .setFontSize =>
    O.one (joined [literal "^CF", O.text (a .font), literal ",", O.text (a .height), literal ",",
      O.text (a .width)])
  | .setPosition => O.one (joined (O.origin (a .x) (a .y)))
  | .endField => done [O.own (.text fieldEnd)]
  | .data | .writeText => O.one (joined (O.fieldData (a .value)))
  | .drawBoxAt =>
    O.boxAt (a .x) (a .y) (a .width) (a .height) (a .lineThickness) (a .color) (a .roundness)
  | .drawBox =>
    O.one (joined
      (O.boxField (a .width) (a .height) (a .lineThickness) (a .color) (a .roundness)))
  | .drawHorizontalLineAt =>
    O.boxAt (a .x) (a .y) (a .width) (O.own (.integer 1)) (a .lineThickness)
      (O.own (.member .black)) (O.own (.member .unrounded))
  | .drawVerticalLineAt =>
    O.boxAt (a .x) (a .y) (O.own (.integer 1)) (a .height) (a .lineThickness)
      (O.own (.member .black)) (O.own (.member .unrounded))
  | .writeTextAt => O.writeLine a (a .y) (a .value)
  | .writeUnderline =>
    O.one (joined
      (O.origin (a .x) (a .y) ++ O.underline (a .length) (a .c1) (a .c2) ++ closing))
  | .writeTextAtWithWrap => O.wrapped passes a
  | .barcodeFormat =>
    O.one (joined [literal "^BY", O.text (a .moduleWidth), literal ",", O.text (a .ratio),
      literal ",", O.text (a .barHeight)])
  | .barcode =>
    O.one (joined
      (O.origin (a .x) (a .y) ++ O.barcodeField a ++ O.fieldData (a .value) ++ closing))
  | .simpleBarcode =>
    O.one (joined
      (O.origin (a .x) (a .y) ++ literal "^BC" :: O.fieldData (a .value) ++ closing))
  | .addQrCodeAt =>
    O.one (joined (literal "^BY2,2,0" :: O.origin (a .x) (a .y) ++
      [literal "^BQN,2,5^FD", O.codeText (a .data)] ++ closing))
  | .addVoidMessage => done (voidFragments.map O.own)

/-! ### Questions about the label -/

def separator (quiet : Bool) : Text :=
  if quiet then "" else "\n"

/-- The fragments from one on, each with the separator behind it. -/
def renderFrom (separator : Text) : Nat → Nat → Act W E V Text
  | 0, _ => Act.stop .unfinished
  | passes + 1, n => do
    match (← Act.label).fragments[n]? with
    | none => return []
    | some v => do
      let s ← O.text v
      return s ++ separator ++ (← renderFrom separator passes (n + 1))

def render (passes : Nat) : Act W E V Text := do
  let quiet ← O.question (.truth (← Act.label).settings.suppressSeparator)
  O.renderFrom (separator quiet) passes 0

def description : Act W E V Text := do
  let settings := (← Act.label).settings
  let dpi ← O.question (.wording settings.dpi)
  let width ← O.question (.wording settings.maxWidth)
  let quiet ← O.question (.wording settings.suppressSeparator)
  let count := (← Act.label).fragments.length
  return "ZplGenerator(SessionConfig(dpi=" ++ dpi ++ ", max_width=" ++ width ++
    ", suppress_separator=" ++ quiet ++ "), fragments=" ++ Text.ofNat count ++ ")"

/-! ### Calls -/

/-- The object of a field: the one given by its name, else the field's own. -/
def valueFrom (named : List (Text × V)) (f : Field) : Option V :=
  (named.lookup (Text.ofString f.parameter.name)).or (f.default?.map O.own)

def byName (named : List (Text × V)) (fields : List Field) : List (Parameter × V) :=
  fields.filterMap fun f => (O.valueFrom named f).map fun v => (f.parameter, v)

/-- The arguments of a call, if they fit the fields. -/
def bind (fields : List Field) (given : List V) (named : List (Text × V)) :
    Option (Parameter → V) :=
  let free := fields.drop given.length
  if fields.length < given.length then none
  else if named.any fun entry => !free.any fun f => f.parameter.isNamed entry.1 then none
  else if free.any fun f => (O.valueFrom named f).isNone then none
  else
    let bound := byPosition fields given ++ O.byName named free
    some fun p => (bound.lookup p).getD (O.own .null)

/-- The length that a conversion is asked for. -/
def conversionArgument (given : List V) (named : List (Text × V)) : Option V :=
  match given, named with
  | [v], [] => some v
  | [], [(name, v)] => if name = "inches" then some v else none
  | _, _ => none

/-- A call with objects of any kind, looked at for so many passes of its loop. -/
def call (passes : Nat) (m : Method) (given : List V) (named : List (Text × V)) :
    Act W E V (Returned V) :=
  match m with
  | .operation op => match O.bind op.fields given named with
    | none => Act.stop (.raised O.misfit)
    | some a => O.operate passes a op
  | .render =>
    if given.isEmpty && named.isEmpty then do return .text (← O.render passes)
    else Act.stop (.raised O.misfit)
  | .text => do return .text (← O.render passes)
  | .description => do return .text (← O.description)
  | .settings => do return .settings (← Act.label).settings
  | .dots => match conversionArgument given named with
    | none => Act.stop (.raised O.misfit)
    | some inches => do
      return .object (← O.question (.dots (← Act.label).settings.dpi inches))

end Objects

end ThermalLabel
