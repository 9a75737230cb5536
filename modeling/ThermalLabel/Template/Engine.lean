import ThermalLabel.Label.Document
import ThermalLabel.Template.Syntax

/-!
# Running templates

What a template gives with the names of `_template_globals`.  It builds one label and prints.  A
name stands for what the template has set it to, else for the label or an enumeration, else for an
entry of the context; what a condition sets stays set behind it.  A name that stands for nothing is
undefined, which counts as false and prints as nothing.

Fields of plain values are not part of the language, and neither is printing a method.
-/
namespace ThermalLabel.Template

abbrev Context := Fields

inductive Object where
  | undefined
  | value (v : Value)
  /-- The label that is built. -/
  | document
  /-- The answer of a wrapped text: the label and the position of the last line. -/
  | wrapped (y : Value)
  | enumeration (e : Enumeration)
  | method (m : Method)

namespace Object

def truthy : Object → Bool
  | undefined => false
  | value v => v.truthy
  | _ => true

def value? : Object → Option Value
  | value v => some v
  | _ => none

/-- What can be called on a label. -/
def methodOf? (n : Text) : Option Method :=
  if n = "render" then some .render
  else if n = "get_dots_from_inches" then some .dots
  else (Operation.ofName? n).map .operation

def field (o : Object) (n : Text) : Except Fault Object :=
  match o with
  | document => .ok (((methodOf? n).map method).getD undefined)
  | wrapped y =>
    .ok (if n = "builder" then document else if n = "ending_y" then value y else undefined)
  | enumeration e =>
    .ok (((e.names.find? fun name : String => n == name).bind (Member.ofName? e)).elim undefined
      fun m => value (.member m))
  | _ => .error .wrongType

def ofAnswer : Answer → Object
  | .outcome .same => document
  | .outcome (.endingY y) => wrapped y
  | .result v => value v

/-- Calls a method of the label. -/
def call (o : Object) (given : List Object) (d : Document) : Except Fault (Object × Document) :=
  match o, given.mapM value? with
  | method m, some values =>
    let (next, reply) := d.call m values []
    reply.answer.map fun answer => (ofAnswer answer, next)
  | _, _ => .error .wrongType

def text (o : Object) (d : Document) : Except Fault Text :=
  match o with
  | undefined => .ok []
  | value v => v.toText
  | document => d.render
  | _ => .error .wrongType

end Object

/-- The names that stand for something in every template. -/
def globals : List (Text × Object) :=
  ("zpl", .document) :: Enumeration.all.map fun e => (Text.ofString e.title, .enumeration e)

/-- What a name stands for that the template has not set. -/
def given (context : Context) (n : Text) : Object :=
  match globals.lookup n with
  | some o => o
  | none => ((context.get? n).map .value).getD .undefined

/-- What a template has done so far. -/
structure Progress where
  document : Document
  assigned : List (Text × Object) := []
  output : Text := []

def Progress.scope (p : Progress) (context : Context) (n : Text) : Object :=
  (p.assigned.lookup n).getD (given context n)

mutual

def evaluate (scope : Text → Object) : Expression → Document → Except Fault (Object × Document)
  | .name n, d => .ok (scope n, d)
  | .constant v, d => .ok (.value v, d)
  | .field e n, d => do
    let (o, d) ← evaluate scope e d
    return (← o.field n, d)
  | .call function arguments, d => do
    let (o, d) ← evaluate scope function d
    let (values, d) ← evaluateAll scope arguments d
    o.call values d
  | .either first second, d => do
    let (o, d) ← evaluate scope first d
    if o.truthy then return (o, d) else evaluate scope second d

def evaluateAll (scope : Text → Object) :
    List Expression → Document → Except Fault (List Object × Document)
  | [], d => .ok ([], d)
  | e :: rest, d => do
    let (o, d) ← evaluate scope e d
    let (others, d) ← evaluateAll scope rest d
    return (o :: others, d)

end

mutual

def execute (context : Context) : Statement → Progress → Except Fault Progress
  | .text s, p => .ok { p with output := p.output ++ s }
  | .print e, p => do
    let (o, d) ← evaluate (p.scope context) e p.document
    return { p with document := d, output := p.output ++ (← o.text d) }
  | .assign n e, p => do
    let (o, d) ← evaluate (p.scope context) e p.document
    return { p with document := d, assigned := (n, o) :: p.assigned }
  | .branch condition body, p => do
    let (o, d) ← evaluate (p.scope context) condition p.document
    if o.truthy then executeAll context body { p with document := d }
    else return { p with document := d }

def executeAll (context : Context) : List Statement → Progress → Except Fault Progress
  | [], p => .ok p
  | s :: rest, p => do
    executeAll context rest (← execute context s p)

end

/-- The output of a template for a label of its own. -/
def run (program : List Statement) (config : Config) (context : Context) : Except Fault Text :=
  (executeAll context program { document := ⟨config, []⟩ }).map (·.output)

end ThermalLabel.Template
