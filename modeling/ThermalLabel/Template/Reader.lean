import ThermalLabel.Template.Syntax

/-!
# Reading templates

An expression is read from left to right.  An open call keeps what was read before it; the symbol
that closes the call goes on from there.  Blocks are read in the same way: an open condition keeps
the statements before it.
-/
namespace ThermalLabel.Template

/-- A call whose arguments are being read, with the alternative that it is the second one of. -/
structure OpenCall where
  function : Expression
  arguments : List Expression := []
  first : Option Expression

/-- An expression of which a part has been read. -/
structure Building where
  outer : List OpenCall := []
  first : Option Expression := none
  operand : Option Expression := none
  afterDot : Bool := false

/-- Words that stand for constants, which cannot be set. -/
def constantWords : List Text :=
  ["true", "false", "none", "True", "False", "None"]

/-- Words that name no variable, and names that the engine defines. -/
def reservedWords : List Text :=
  constantWords ++ ([ "and", "not", "in", "is", "if", "else", "range", "dict", "lipsum", "cycler",
    "joiner", "namespace", "self", "super", "loop", "caller", "varargs", "kwargs" ] : List Text)

namespace Building

/-- The expression as far as it has been read, if it is complete there. -/
def whole (b : Building) : Option Expression :=
  if b.afterDot then none
  else b.operand.map fun e => match b.first with
    | some first => .either first e
    | none => e

/-- Nothing has been read of the expression. -/
def isEmpty (b : Building) : Bool :=
  b.first.isNone && b.operand.isNone

def readWord (b : Building) (n : Text) : Option Building :=
  match b.operand with
  | some e =>
    if b.afterDot then some { b with operand := some (.field e n), afterDot := false }
    else if n = "or" then b.whole.map fun first => { b with first, operand := none }
    else none
  | none => if reservedWords.contains n || n == "or" then none
    else some { b with operand := some (.name n) }

def readMark (b : Building) (c : Char) : Option Building :=
  match c, b.operand, b.outer with
  | '.', some _, _ => if b.afterDot then none else some { b with afterDot := true }
  | '(', some function, outer =>
    if b.afterDot then none else some { outer := { function, first := b.first } :: outer }
  | ',', some _, call :: outer =>
    b.whole.map fun e => { outer := { call with arguments := call.arguments ++ [e] } :: outer }
  | ')', _, call :: outer => do
    let arguments ←
      if b.isEmpty && call.arguments.isEmpty then some []
      else b.whole.map fun e => call.arguments ++ [e]
    return { outer, first := call.first, operand := some (.call call.function arguments) }
  | _, _, _ => none

def read (b : Building) : Symbol → Option Building
  | .word n => b.readWord n
  | .constant v => if b.operand.isNone then some { b with operand := some (.constant v) } else none
  | .mark c => b.readMark c

end Building

def expression (symbols : List Symbol) : Option Expression := do
  let b ← symbols.foldlM Building.read {}
  if b.outer.isEmpty then b.whole else none

/-- A template of which a part has been read: the innermost open body, and the bodies around it,
each with the condition that was opened behind it. -/
structure Assembly where
  body : List Statement := []
  outer : List (List Statement × Expression) := []

namespace Assembly

def add (a : Assembly) (s : Statement) : Assembly :=
  { a with body := a.body ++ [s] }

def readBlock (a : Assembly) : List Symbol → Option Assembly
  | .word verb :: rest =>
    if verb = "set" then
      match rest with
      | .word n :: .mark '=' :: value =>
        if constantWords.contains n then none
        else (expression value).map fun e => a.add (.assign n e)
      | _ => none
    else if verb = "if" then
      (expression rest).map fun condition => { outer := (a.body, condition) :: a.outer }
    else if verb = "endif" then
      match rest, a.outer with
      | [], (before, condition) :: outer =>
        some { body := before ++ [.branch condition a.body], outer }
      | _, _ => none
    else none
  | _ => none

def read (a : Assembly) : Chunk → Option Assembly
  | .text [] => some a
  | .text s => some (a.add (.text (Text.ofChars s)))
  | .print content => do
    return a.add (.print (← expression (← symbols content)))
  | .block content => do
    a.readBlock (← symbols content)

end Assembly

def normalLines : List Char → List Char
  | [] => []
  | '\r' :: '\n' :: rest => '\n' :: normalLines rest
  | '\r' :: rest => '\n' :: normalLines rest
  | c :: rest => c :: normalLines rest

/-- A text without the line feed at its end, if it has one. -/
def dropLastBreak (s : List Char) : List Char :=
  if s.getLast? = some '\n' then s.dropLast else s

/-- The statements of a source.  Line feeds are its only line ends, and the last one is dropped. -/
def program? (source : List Char) : Option (List Statement) := do
  let chunks ← scan (.text true []) (dropLastBreak (normalLines source))
  let a ← chunks.foldlM Assembly.read {}
  if a.outer.isEmpty then some a.body else none

end ThermalLabel.Template
