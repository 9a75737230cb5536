import ThermalLabel.Label.Document

/-!
# The demonstration label

`build_sample_label` on a label without fragments: a box, a text and a square code that holds the
same text.
-/
namespace ThermalLabel.Sample

def defaultText : String := "Hello World"

def calls (text : Value) : List Call :=
  [.of .start [],
    .of .drawBoxAt [(.x, .integer 50), (.y, .integer 50), (.width, .integer 100),
      (.height, .integer 100), (.lineThickness, .integer 2)],
    .of .setFont [(.height, .integer 50)],
    .of .writeTextAt [(.x, .integer 150), (.y, .integer 150), (.value, text)],
    .of .addQrCodeAt [(.x, .integer 200), (.y, .integer 200), (.data, text)],
    .of .finish []]

def render (config : Config) (text : Value) : Except Fault Text := do
  (← Document.performAll ⟨config, []⟩ (calls text)).render

end ThermalLabel.Sample
