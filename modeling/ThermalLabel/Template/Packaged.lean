/-!
# The packaged template

The text of `sample_default`, and the label that it makes: a frame, a centred title, a wrapped
description, an optional barcode and a square code.  Four entries of its context are looked at, and
one that counts as false is as good as absent.
-/
namespace ThermalLabel.Template

/-- The file under which the template is packaged. -/
def packagedName : String := "sample_default.zpl.j2"

def packagedLines : List String := [
  "\x7b# Etiqueta de exemplo: caixa, título centralizado, texto quebrado e QR #\x7d",
  "\x7b% set z = zpl.start() %\x7d",
  "\x7b% set z = z.draw_box_at(10, 10, 690, 380, 3, Color.BLACK, Roundness.LEVEL2) %\x7d",
  "\x7b% set z = z.set_font(40) %\x7d",
  "\x7b% set z = z.write_text_at(0, 30, texto or \"Sample\", Orientation.NORMAL, Justification.CENTER) %\x7d",
  "\x7b% set z = z.draw_horizontal_line_at(20, 90, 670, 2) %\x7d",
  "\x7b% set z = z.set_font(25) %\x7d",
  "\x7b% set z = z.write_text_at_with_wrap(30, 110, descricao or \"\", 40, 30, 250).builder %\x7d",
  "\x7b% if codigo %\x7d",
  "\x7b% set z = z.barcode_format(2, 3.0, 60) %\x7d",
  "\x7b% set z = z.simple_barcode(30, 280, codigo) %\x7d",
  "\x7b% endif %\x7d",
  "\x7b% set z = z.add_qr_code_at(560, 250, qr or texto or \"Sample\") %\x7d",
  "\x7b\x7b z.end() \x7d\x7d"]

/-- The text of the packaged template. -/
def packagedText : String :=
  String.ofList (packagedLines.flatMap fun line => line.toList ++ ['\n'])

end ThermalLabel.Template
