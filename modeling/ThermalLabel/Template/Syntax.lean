import ThermalLabel.Number.Integer
import ThermalLabel.Text.Hex
import ThermalLabel.Value

/-!
# Template language

The part of the template language that labels are written in.  A template is text with comments,
prints and blocks in it.  A block sets a variable, or opens or closes a condition.  Expressions are
names, numbers, texts in quotes, fields, calls and alternatives.

A line feed right behind a comment or a block is dropped, and so is the indentation before it if
nothing else stands before it on its line, as the environment of `make_env` has it with
`trim_blocks` and `lstrip_blocks`.

Of the language of the engine this is all that is modelled.  A source that uses anything else is
refused here, though the engine may render it: filters, tests, loops, macros and inclusions, the
arithmetic of expressions, signs inside the marks that trim the blanks around them, characters that
are spelled by their names, and the names that the engine itself defines.
-/
namespace ThermalLabel.Template

inductive Expression where
  | name (n : Text)
  | constant (v : Value)
  | field (e : Expression) (n : Text)
  | call (function : Expression) (arguments : List Expression)
  /-- The first one if it counts as true, else the second one. -/
  | either (first second : Expression)

inductive Statement where
  | text (s : Text)
  | print (e : Expression)
  | assign (n : Text) (e : Expression)
  | branch (condition : Expression) (body : List Statement)

/-- What a source is cut into; comments are left out. -/
inductive Chunk where
  | text (s : List Char)
  | print (content : List Char)
  | block (content : List Char)

/-- Whether a place stands in a text in quotes, and there right behind a backslash. -/
inductive Quoting where
  | outside
  | inside (quote : Char) (escaped : Bool)

/-- Where the reading of a source stands: what it has read of the current chunk, for a text whether
it starts a line, and for a print or a block whether it is in a text in quotes. -/
inductive Mode where
  | text (startsLine : Bool) (done : List Char)
  | comment
  | print (quoting : Quoting) (done : List Char)
  | block (quoting : Quoting) (done : List Char)

/-- A text without the blanks at its end, if they are all that stands on its last line. -/
def withoutIndent (startsLine : Bool) (s : List Char) : List Char :=
  let last := (s.reverse.takeWhile (· != '\n')).reverse
  if (startsLine || s.contains '\n') && last.all fun c => Text.isBlank (.char c) then
    s.take (s.length - last.length)
  else s

def isQuote (c : Char) : Bool :=
  c == '"' || c == '\''

/-- A quote behind a backslash does not end the text. -/
def Quoting.after : Quoting → Char → Quoting
  | outside, c => if isQuote c then inside c false else outside
  | inside quote true, _ => inside quote false
  | inside quote false, c =>
    if c == '\\' then inside quote true
    else if c == quote then outside
    else inside quote false

/-- A sign that trims the blanks around a mark. -/
def isTrimming (c : Char) : Bool :=
  c == '-' || c == '+'

def scan : Mode → List Char → Option (List Chunk)
  | .text _ done, [] => some [.text done]
  | .text starts done, '{' :: '#' :: rest =>
    if (rest.head?.map isTrimming).getD false then none
    else do
      return .text (withoutIndent starts done) :: (← scan .comment rest)
  | .text starts done, '{' :: '%' :: rest => do
    return .text (withoutIndent starts done) :: (← scan (.block .outside []) rest)
  | .text _ done, '{' :: '{' :: rest => do
    return .text done :: (← scan (.print .outside []) rest)
  | .text starts done, c :: rest => scan (.text starts (done ++ [c])) rest
  | .comment, '#' :: '}' :: '\n' :: rest => scan (.text true []) rest
  | .comment, '#' :: '}' :: rest => scan (.text false []) rest
  | .comment, '-' :: '#' :: '}' :: _ => none
  | .comment, '+' :: '#' :: '}' :: _ => none
  | .comment, _ :: rest => scan .comment rest
  | .block .outside done, '%' :: '}' :: '\n' :: rest => do
    return .block done :: (← scan (.text true []) rest)
  | .block .outside done, '%' :: '}' :: rest => do
    return .block done :: (← scan (.text false []) rest)
  | .block quoting done, c :: rest => scan (.block (quoting.after c) (done ++ [c])) rest
  | .print .outside done, '}' :: '}' :: rest => do
    return .print done :: (← scan (.text false []) rest)
  | .print quoting done, c :: rest => scan (.print (quoting.after c) (done ++ [c])) rest
  | _, [] => none

inductive Symbol where
  | word (n : Text)
  | constant (v : Value)
  | mark (c : Char)

/-- What the reading of a text in quotes has read of the character that is spelled. -/
inductive Spelling where
  | plain
  /-- A backslash. -/
  | opened
  /-- So many hexadecimal digits are still to come. -/
  | hexadecimal (left value : Nat)
  /-- At most so many octal digits are still to come. -/
  | octal (left value : Nat)

namespace Spelling

def digit? (base : Nat) (c : Char) : Option Nat :=
  (Text.hexValue? c).filter (· < base)

/-- Letters that stand for a character behind a backslash. -/
def letters : List (Char × Nat) :=
  [('a', 7), ('b', 8), ('t', 9), ('n', 10), ('v', 11), ('f', 12), ('r', 13)]

/-- The characters that stand for themselves behind a backslash. -/
def marks : List Char := ['\\', '\'', '"']

/-- Goes on behind a backslash.  The backslash stays if nothing is spelled. -/
def open? (c : Char) : Option (Text × Spelling) :=
  if c == '\n' then some ([], plain)
  else if marks.contains c then some ([.char c], plain)
  else match letters.lookup c, digit? 8 c with
    | some n, _ => some ([.ofNat n], plain)
    | none, some d => some ([], octal 2 d)
    | none, none =>
      if c == 'x' then some ([], hexadecimal 2 0)
      else if c == 'u' then some ([], hexadecimal 4 0)
      else if c == 'U' then some ([], hexadecimal 8 0)
      else if c == 'N' || 128 ≤ c.toNat then none
      else some (['\\', .char c], plain)

def unspelled (c : Char) : Text × Spelling :=
  if c == '\\' then ([], opened) else ([.char c], plain)

/-- What is read with the next character, and where the spelling stands behind it. -/
def step : Spelling → Char → Option (Text × Spelling)
  | plain, c => some (unspelled c)
  | opened, c => open? c
  | hexadecimal left value, c => do
    let n := 16 * value + (← digit? 16 c)
    if 1 < left then return ([], hexadecimal (left - 1) n)
    else if n < 0x110000 then return ([.ofNat n], plain)
    else none
  | octal left value, c => match digit? 8 c with
    | some d =>
      if 1 < left then some ([], octal (left - 1) (8 * value + d))
      else some ([.ofNat (8 * value + d)], plain)
    | none => let (next, spelling) := unspelled c; some (.ofNat value :: next, spelling)

/-- What is left to be read at the quote that ends the text. -/
def finish : Spelling → Option Text
  | plain => some []
  | octal _ value => some [.ofNat value]
  | opened | hexadecimal .. => none

end Spelling

/-- What the reading of a symbol has read of it. -/
inductive Partial where
  | blank
  | word (done : List Char)
  | number (done : List Char)
  | quoted (quote : Char) (done : Text) (spelling : Spelling)

def startsName (c : Char) : Bool :=
  c.isAlpha || c == '_'

/-- The number that is spelled.  An integer has no zeros in front, and a point has digits on both
sides. -/
def numberOf? (s : List Char) : Option Value :=
  match Text.takeDigits (Text.ofChars s) with
  | (ds, []) =>
    if 1 < ds.length && ds.head? == some 0 then none
    else some (.integer (Number.ofDigits ds))
  | (ds, .char '.' :: rest) => match Text.takeDigits rest with
    | (d :: places, []) =>
      some (.double (.ofScientific false (Number.ofDigits (ds ++ d :: places))
        (-(d :: places).length)))
    | _ => none
  | _ => none

namespace Partial

/-- The symbol that is complete when nothing more belongs to it. -/
def finish : Partial → Option (List Symbol)
  | blank => some []
  | word done => some [.word (Text.ofChars done)]
  | number done => (numberOf? done).map fun v => [.constant v]
  | quoted .. => none

/-- Starts a symbol; a mark is complete at once. -/
def start (c : Char) : Option (List Symbol × Partial) :=
  if Text.isBlank (.char c) then some ([], blank)
  else if startsName c then some ([], word [c])
  else if c.isDigit then some ([], number [c])
  else if isQuote c then some ([], quoted c [] .plain)
  else if ['.', ',', '(', ')', '='].contains c then some ([.mark c], blank)
  else none

def step (p : Partial) (c : Char) : Option (List Symbol × Partial) :=
  match p with
  | blank => start c
  | word done =>
    if startsName c || c.isDigit then some ([], word (done ++ [c]))
    else do
      let (symbols, next) ← start c
      return (.word (Text.ofChars done) :: symbols, next)
  | number done =>
    if c.isDigit || c == '.' then some ([], number (done ++ [c]))
    else do
      let complete ← finish (number done)
      let (symbols, next) ← start c
      return (complete ++ symbols, next)
  | quoted quote done .opened => do
    let (next, spelling) ← Spelling.open? c
    return ([], quoted quote (done ++ next) spelling)
  | quoted quote done spelling =>
    if c == quote then do
      return ([.constant (.text (done ++ (← spelling.finish)))], blank)
    else do
      let (next, spelling) ← spelling.step c
      return ([], quoted quote (done ++ next) spelling)

end Partial

def symbolsFrom (p : Partial) : List Char → Option (List Symbol)
  | [] => p.finish
  | c :: rest => do
    let (symbols, next) ← p.step c
    return symbols ++ (← symbolsFrom next rest)

def symbols (content : List Char) : Option (List Symbol) :=
  symbolsFrom .blank content

end ThermalLabel.Template
