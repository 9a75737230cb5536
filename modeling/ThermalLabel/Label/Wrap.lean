import ThermalLabel.Label.Emission
import ThermalLabel.Text.Blank
import ThermalLabel.Text.Split
import ThermalLabel.Value.Arithmetic
import ThermalLabel.Value.Order

/-!
# Wrapping a text into lines

`write_text_at_with_wrap` for a text and a limit that is a value.  A text is cut at its single
spaces into words, which may be empty.  Every word counts with the space that follows it.  A line
takes words as long as they fit and always takes its first one, so a word longer than the limit has
a line of its own.  Lines are placed one interval apart until the next one would lie below the
lowest position; the remaining words are dropped.

The program finds and places the lines in one loop.  Here they are found first and placed then; the
loop itself is `Objects.fill`.
-/
namespace ThermalLabel.Wrap

abbrev Word := Text

def words (s : Text) : List Word :=
  Text.split (.char ' ') s

/-- The room that a word takes. -/
def room (w : Word) : Nat :=
  w.length + 1

/-- Continues a line that holds `line` and takes `length` code points. -/
def breakLines (fits : Nat → Bool) (line : List Word) (length : Nat) :
    List Word → List (List Word)
  | [] => [line]
  | w :: rest =>
    if fits (length + room w) then breakLines fits (line ++ [w]) (length + room w) rest
    else line :: breakLines fits [w] (room w) rest

/-- The words divided into lines. -/
def lines (fits : Nat → Bool) : List Word → List (List Word)
  | [] => []
  | w :: rest => breakLines fits [w] (room w) rest

/-- The words of a line, each followed by a space. -/
def lineText (line : List Word) : Text :=
  line.flatMap fun w => w ++ [.char ' ']

def wordCount (rest : List (List Word)) : Nat :=
  rest.flatten.length

/-- The emission of a run that is cut: the position falls back to the last line. -/
def cut (y interval maxY : Value) (dropped : Nat) : Emission :=
  { fragments := [], notices := [⟨maxY, dropped⟩], outcome := (y.sub interval).map .endingY }

/-- Places lines from position `y` downwards; `write` gives the command for a line. -/
def place (write : Value → Text → Except Fault Text) (interval maxY : Value) (y : Value) :
    List (List Word) → Emission
  | [] => { fragments := [], outcome := .ok (.endingY y) }
  | line :: rest =>
    match write y (lineText line) with
    | .error f => .fault f
    | .ok s =>
      .cons s <|
        if rest.isEmpty then { fragments := [], outcome := .ok (.endingY y) }
        else match y.add interval with
          | .error f => .fault f
          | .ok next => match next.exceeds maxY with
            | .error f => .fault f
            | .ok true => cut next interval maxY (wordCount rest)
            | .ok false => place write interval maxY next rest

/-- A text that fits the limit as it stands is written unchanged, on one line. -/
def text (write : Value → Text → Except Fault Text) (limit interval maxY : Value) (y : Value)
    (s : Text) : Emission :=
  if Text.blank s then { fragments := [], outcome := .ok (.endingY y) }
  else match limit.limit with
    | .error f => .fault f
    | .ok fits =>
      if fits s.length then
        match write y s with
        | .error f => .fault f
        | .ok line => .cons line { fragments := [], outcome := .ok (.endingY y) }
      else place write interval maxY y (lines fits (words s))

end ThermalLabel.Wrap
