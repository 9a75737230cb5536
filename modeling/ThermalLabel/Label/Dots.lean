import ThermalLabel.Value.Decimal
import ThermalLabel.Value.Text

/-!
# Inches to dots

`get_dots_from_inches`.  The length is read from its written form, multiplied by the resolution in
decimal arithmetic, and rounded to an integer; a half goes to the even one.
-/
namespace ThermalLabel

open Number (Decimal)

/-- The product of two decimals as the nearest integer. -/
def dotsOf (inches dpi : Decimal) : Except Fault Int := do
  let product ← fromArithmetic (inches.mul Decimal.working dpi)
  let whole ← fromArithmetic (product.toIntegral Decimal.working)
  decimalToInteger whole

def dots (dpi inches : Value) : Except Fault Int := do
  let length ← readDecimal (← inches.toText)
  dotsOf length (← dpi.toDecimal)

end ThermalLabel
