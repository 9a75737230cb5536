import ThermalLabel.Value

/-!
# Operations on a label

The operations, the names under which `OPERATIONS` has them, and the fields they take: in which
order, of which type, and with which value where a field may be left out.  Names and order are those
of the methods of `ZplGenerator`, types are those that a script is checked for.
-/
namespace ThermalLabel

inductive Operation where
  | start | finish | raw | reversePrint | setFont | setFontSize | setPosition | endField | data
  | drawBoxAt | drawBox | drawHorizontalLineAt | drawVerticalLineAt
  | writeText | writeTextAt | writeUnderline | writeTextAtWithWrap
  | barcodeFormat | barcode | simpleBarcode | addQrCodeAt | addVoidMessage
  deriving DecidableEq, Repr

inductive Parameter where
  | x | y | width | height | length | lineThickness | color | roundness
  | value | font | orientation | justification | c1 | c2
  | wrap | lineInterval | maxY
  | moduleWidth | ratio | barHeight
  | printText | textPosition | useUccCheckDigit | mode | data
  deriving DecidableEq, Repr

def Parameter.name : Parameter → String
  | x => "x"
  | y => "y"
  | width => "width"
  | height => "height"
  | length => "length"
  | lineThickness => "line_thickness"
  | color => "color"
  | roundness => "roundness"
  | value => "value"
  | font => "font"
  | orientation => "orientation"
  | justification => "justification"
  | c1 => "c1"
  | c2 => "c2"
  | wrap => "wrap"
  | lineInterval => "line_interval"
  | maxY => "max_y"
  | moduleWidth => "module_width"
  | ratio => "ratio"
  | barHeight => "bar_height"
  | printText => "print_text"
  | textPosition => "text_position"
  | useUccCheckDigit => "use_ucc_check_digit"
  | mode => "mode"
  | data => "data"

def Parameter.isNamed (p : Parameter) (name : Text) : Bool :=
  Text.ofString p.name == name

/-- What a script may give for a field. -/
inductive FieldType where
  | integer | text | flag | optionalText | number
  | choice (e : Enumeration)
  deriving DecidableEq, Repr

structure Field where
  parameter : Parameter
  type : FieldType
  default? : Option Value := none

namespace Field

def integer (p : Parameter) : Field := ⟨p, .integer, none⟩
def text (p : Parameter) : Field := ⟨p, .text, none⟩
def flag (p : Parameter) : Field := ⟨p, .flag, none⟩
def choice (p : Parameter) (e : Enumeration) : Field := ⟨p, .choice e, none⟩

/-- A field that takes a member, the given one unless another is set. -/
def option (p : Parameter) (m : Member) : Field :=
  ⟨p, .choice m.enumeration, some (.member m)⟩

def required (f : Field) : Bool :=
  f.default?.isNone

end Field

/-- The values of an operation's fields. -/
abbrev Arguments := Parameter → Value

namespace Operation

def all : List Operation :=
  [start, finish, raw, reversePrint, setFont, setFontSize, setPosition, endField, data,
    drawBoxAt, drawBox, drawHorizontalLineAt, drawVerticalLineAt,
    writeText, writeTextAt, writeUnderline, writeTextAtWithWrap,
    barcodeFormat, barcode, simpleBarcode, addQrCodeAt, addVoidMessage]

def name : Operation → String
  | start => "start"
  | finish => "end"
  | raw => "raw"
  | reversePrint => "reverse_print"
  | setFont => "set_font"
  | setFontSize => "set_font_size"
  | setPosition => "set_position"
  | endField => "end_field"
  | data => "data"
  | drawBoxAt => "draw_box_at"
  | drawBox => "draw_box"
  | drawHorizontalLineAt => "draw_horizontal_line_at"
  | drawVerticalLineAt => "draw_vertical_line_at"
  | writeText => "write_text"
  | writeTextAt => "write_text_at"
  | writeUnderline => "write_underline"
  | writeTextAtWithWrap => "write_text_at_with_wrap"
  | barcodeFormat => "barcode_format"
  | barcode => "barcode"
  | simpleBarcode => "simple_barcode"
  | addQrCodeAt => "add_qr_code_at"
  | addVoidMessage => "add_void_message"

def ofName? (name : Text) : Option Operation :=
  all.find? fun op => Text.ofString op.name == name

def fields : Operation → List Field
  | start | finish | reversePrint | endField | addVoidMessage => []
  | raw | data | writeText => [.text .value]
  | setFont => [.integer .height, ⟨.font, .text, some (.text "0")⟩]
  | setFontSize => [.text .font, .integer .height, .integer .width]
  | setPosition => [.integer .x, .integer .y]
  | drawBoxAt =>
    [.integer .x, .integer .y, .integer .width, .integer .height, .integer .lineThickness,
      .option .color .black, .option .roundness .unrounded]
  | drawBox =>
    [.integer .width, .integer .height, .integer .lineThickness,
      .option .color .black, .option .roundness .unrounded]
  | drawHorizontalLineAt => [.integer .x, .integer .y, .integer .width, .integer .lineThickness]
  | drawVerticalLineAt => [.integer .x, .integer .y, .integer .height, .integer .lineThickness]
  | writeTextAt =>
    [.integer .x, .integer .y, .text .value, .option .orientation .upright,
      .option .justification .left]
  | writeUnderline => [.integer .x, .integer .y, .integer .length, .integer .c1, .integer .c2]
  | writeTextAtWithWrap =>
    [.integer .x, .integer .y, ⟨.value, .optionalText, none⟩, .integer .wrap,
      .integer .lineInterval, .integer .maxY, .option .orientation .upright,
      .option .justification .left]
  | barcodeFormat => [.integer .moduleWidth, ⟨.ratio, .number, none⟩, .integer .barHeight]
  | barcode =>
    [.choice .orientation .orientation, .integer .height, .flag .printText,
      .choice .textPosition .barcodeLabelPosition, .flag .useUccCheckDigit,
      .choice .mode .barcodeMode, .integer .x, .integer .y, .text .value]
  | simpleBarcode => [.integer .x, .integer .y, .text .value]
  | addQrCodeAt => [.integer .x, .integer .y, .text .data]

/-- The names in alphabetical order. -/
def sortedNames : List String :=
  (all.map name).mergeSort fun a b => decide (a ≤ b)

end Operation

end ThermalLabel
