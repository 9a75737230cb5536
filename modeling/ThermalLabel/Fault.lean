import ThermalLabel.Number.Decimal
import ThermalLabel.Number.Integer
import ThermalLabel.Text.Quoted

/-!
# Faults

What can go wrong when a loosely typed value meets an operation that has no meaning for it.  The
wording of a fault is given where the program shows it, in the refusal of a script or in the log.
-/
namespace ThermalLabel

open Number (Decimal)

/-- What is wrong with a list that should give sign, digits and exponent of a decimal. -/
inductive TripleFlaw where
  | length | sign | digits | exponent | mark
  deriving DecidableEq, Repr

/-- The integers of fixed size that an integer may have to fit. -/
inductive Word where
  | short | long | size
  deriving DecidableEq, Repr

inductive Fault where
  /-- An operand, or the list of arguments, is of the wrong kind. -/
  | wrongType
  /-- A text was needed. -/
  | notText
  /-- A text is no template. -/
  | notTemplate
  /-- An integer has too many digits to be written. -/
  | longInteger
  /-- A numeral has too many digits to be read. -/
  | longNumeral (digits : Nat)
  | notInteger (numeral : Text)
  | decimalNaNToInteger
  | doubleNaNToInteger
  | infiniteDecimalToInteger
  | infiniteDoubleToInteger
  /-- An integer is out of the range of doubles. -/
  | beyondDouble
  | beyondWord (w : Word)
  /-- A number is not that of a code point. -/
  | beyondCodePoints
  /-- More digits are asked for than an integer can be given. -/
  | tooManyDigits
  /-- A text is asked for that is too long for any memory. -/
  | tooLong
  | malformedTriple (flaw : TripleFlaw)
  | arithmetic (signal : Decimal.Signal)
  deriving DecidableEq, Repr

def TripleFlaw.message : TripleFlaw → String
  | length => "argument must be a sequence of length 3"
  | sign => "sign must be an integer with the value 0 or 1"
  | digits => "coefficient must be a tuple of digits"
  | exponent => "exponent must be an integer"
  | mark => "string argument in the third position must be 'F', 'n' or 'N'"

namespace Word

def bits : Word → Nat
  | short => 32
  | long | size => 64

/-- The integers of a word lie below this number and not below its opposite. -/
def bound (w : Word) : Nat :=
  Nat.pow 2 (w.bits - 1)

def holds (w : Word) (n : Int) : Bool :=
  decide (-(w.bound : Int) ≤ n ∧ n < w.bound)

def title : Word → String
  | short => "int"
  | long => "long"
  | size => "ssize_t"

end Word

namespace Fault

def limitText : String :=
  "Exceeds the limit (" ++ toString Number.maxDigits ++ " digits) for integer string conversion"

def adviceText : String :=
  "; use sys.set_int_max_str_digits() to increase the limit"

/-- The wording of a fault; some kinds have none. -/
def message : Fault → Text
  | longInteger => limitText ++ adviceText
  | longNumeral n => limitText ++ ": value has " ++ toString n ++ " digits" ++ adviceText
  | notInteger numeral =>
    "invalid literal for int() with base 10: " ++ (Text.quoted numeral).take 200
  | decimalNaNToInteger => "cannot convert NaN to integer"
  | doubleNaNToInteger => "cannot convert float NaN to integer"
  | infiniteDecimalToInteger => "cannot convert Infinity to integer"
  | infiniteDoubleToInteger => "cannot convert float infinity to integer"
  | beyondDouble => "int too large to convert to float"
  | beyondCodePoints => "%c arg not in range(0x110000)"
  | beyondWord w => "Python int too large to convert to C " ++ w.title
  | tooManyDigits => "precision too large"
  | malformedTriple flaw => flaw.message
  | wrongType | notText | notTemplate | tooLong | arithmetic _ => ""

end Fault

/-- The answer of decimal arithmetic, with its signals as faults. -/
def fromArithmetic {α : Type} : Except Decimal.Signal α → Except Fault α
  | .ok a => .ok a
  | .error s => .error (.arithmetic s)

end ThermalLabel
