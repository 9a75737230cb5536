import ThermalLabel.Escape
import ThermalLabel.Label.Config
import ThermalLabel.Label.Operation
import ThermalLabel.Label.Wrap
import ThermalLabel.Token

/-!
# What operations emit

The bodies of the methods of `ZplGenerator` from `start` to `add_void_message`, with
`_field_origin`, `_field_data` and `_box_field`.  Coordinates, texts and settings are written as
they are given; only text at a position is escaped.  Nothing is read back, so an emission depends on
the settings and the arguments alone.  That a method returns the label itself is what the outcome
`same` stands for.
-/
namespace ThermalLabel

def fieldEnd : String := "^FS"

def origin (x y : Value) : List Part :=
  ["^FO", x, ",", y]

def fieldData (v : Value) : List Part :=
  ["^FD", v]

def boxField (width height thickness color roundness : Value) : List Part :=
  ["^GB", width, ",", height, ",", thickness, ",", Token.color color, ",",
    .token (Token.roundness roundness)]

/-- The text of a value that has to be a text. -/
def textOf : Value → Except Fault Text
  | .text s => .ok s
  | _ => .error .notText

/-- A text at a position, in hexadecimal mode.  The block of a centred text starts at the left
margin. -/
def textField (config : Config) (orientation justification x y : Value) (s : Text) :
    Except Fault Text := do
  let block ← Token.justification justification config.maxWidth
  let left := if ← justification.is .center then Value.integer 0 else x
  command ["^FO", left, ",", y, block, Token.fontOrientation orientation, "^FH^FD",
    Escape.encode s, fieldEnd]

def closing : List Part :=
  [fieldEnd]

def boxAt (x y width height thickness color roundness : Value) : Emission :=
  .one (command (origin x y ++ boxField width height thickness color roundness ++ closing))

def underline (length c1 c2 : Value) : List Part :=
  ["^GB", length, ",", c1, ",", c2]

def barcodeField (a : Arguments) : List Part :=
  ["^BC", Token.orientation (a .orientation), ",", a .height, ",", Token.yesNo (a .printText), ",",
    .token (Token.textPosition (a .textPosition)), ",", Token.yesNo (a .useUccCheckDigit), ",",
    Token.barcodeMode (a .mode)]

def plainBarcodeField : List Part :=
  ["^BC"]

/-- Lines of two dots for the code that follows. -/
def qrFormat : List Part :=
  ["^BY2,2,0"]

/-- A code in automatic mode, upright, of model two and magnification five. -/
def qrField (content : Value) : List Part :=
  match content with
  | .text s => ["^BQN,2,5^FDLA,", s]
  | _ => [.token (.error .wrongType)]

/-- The letters of a diagonal watermark and their heights. -/
def voidLetters : List (Nat × String) :=
  [(70, "V"), (130, "O"), (190, "I"), (250, "D"), (430, "V"), (490, "O"), (550, "I"), (610, "D")]

def voidFragments : List Value :=
  .text "^FO0,0^GD650,700,10,,R ^FS" ::
    voidLetters.map fun (y, letter) =>
      .text ("^ADN,60,40^FO300," ++ toString y ++ "^FD" ++ letter ++ fieldEnd : String)

def Operation.emit (config : Config) (a : Arguments) : Operation → Emission
  | .start => .done [.text "^XA"]
  | .finish => .done [.text "~JSN", .text "^XZ"]
  | .raw => .done [a .value]
  | .reversePrint => .done [.text "^FR"]
  | .setFont => .one (command ["^CF", a .font, ",", a .height])
  | .setFontSize => .one (command ["^CF", a .font, ",", a .height, ",", a .width])
  | .setPosition => .one (command (origin (a .x) (a .y)))
  | .endField => .done [.text fieldEnd]
  | .data | .writeText => .one (command (fieldData (a .value)))
  | .drawBoxAt =>
    boxAt (a .x) (a .y) (a .width) (a .height) (a .lineThickness) (a .color) (a .roundness)
  | .drawBox =>
    .one (command
      (boxField (a .width) (a .height) (a .lineThickness) (a .color) (a .roundness)))
  | .drawHorizontalLineAt =>
    boxAt (a .x) (a .y) (a .width) (.integer 1) (a .lineThickness) (.member .black)
      (.member .unrounded)
  | .drawVerticalLineAt =>
    boxAt (a .x) (a .y) (.integer 1) (a .height) (a .lineThickness) (.member .black)
      (.member .unrounded)
  | .writeTextAt =>
    .one do
      textField config (a .orientation) (a .justification) (a .x) (a .y) (← textOf (a .value))
  | .writeUnderline =>
    .one (command (origin (a .x) (a .y) ++ underline (a .length) (a .c1) (a .c2) ++ closing))
  | .writeTextAtWithWrap =>
    match a .value with
    | .null => { fragments := [], outcome := .ok (.endingY (a .y)) }
    | .text s =>
      Wrap.text (textField config (a .orientation) (a .justification) (a .x)) (a .wrap)
        (a .lineInterval) (a .maxY) (a .y) s
    | _ => .fault .notText
  | .barcodeFormat => .one (command ["^BY", a .moduleWidth, ",", a .ratio, ",", a .barHeight])
  | .barcode =>
    .one (command (origin (a .x) (a .y) ++ barcodeField a ++ fieldData (a .value) ++ closing))
  | .simpleBarcode =>
    .one (command (origin (a .x) (a .y) ++ plainBarcodeField ++ fieldData (a .value) ++ closing))
  | .addQrCodeAt =>
    .one (command (qrFormat ++ origin (a .x) (a .y) ++ qrField (a .data) ++ closing))
  | .addVoidMessage => .done voidFragments

end ThermalLabel
