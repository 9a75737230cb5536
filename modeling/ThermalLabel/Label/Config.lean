import ThermalLabel.Value.Text

/-!
# Session settings

`SessionConfig`: the resolution in dots per inch, the width of the label in dots, and whether
commands follow one another without a separator.  The settings of a script are checked, those of a
label built by hand are taken as they are.
-/
namespace ThermalLabel

structure Config where
  dpi : Value := .integer 203
  maxWidth : Value := .integer 710
  suppressSeparator : Value := .flag true

namespace Config

def separator (c : Config) : String :=
  if c.suppressSeparator.truthy then "" else "\n"

/-- Positive integers and a truth value: what a script can run under. -/
def Valid (c : Config) : Prop :=
  ∃ dpi width : Int, ∃ quiet : Bool,
    0 < dpi ∧ 0 < width ∧ c = ⟨.integer dpi, .integer width, .flag quiet⟩

def toValue (c : Config) : Value :=
  .object [("dpi", c.dpi), ("max_width", c.maxWidth), ("suppress_separator", c.suppressSeparator)]

def description (c : Config) : Except Fault Text := do
  let dpi ← c.dpi.quoted
  let width ← c.maxWidth.quoted
  let quiet ← c.suppressSeparator.quoted
  return ("SessionConfig(dpi=" : Text) ++ dpi ++ ", max_width=" ++ width ++
    ", suppress_separator=" ++ quiet ++ ")"

end Config

end ThermalLabel
