import ThermalLabel.Label.Binding
import ThermalLabel.Label.Dots
import ThermalLabel.Label.Emit

/-!
# Label documents

`ZplGenerator` over values: a list of fragments under fixed settings.  Operations only append to it.
`render` writes each fragment with the separator behind it; `__repr__`, `config` and
`get_dots_from_inches` ask without changing anything.

Values do not change, so this is the label as long as no list among its fragments is given as a
position as well.  Lists that are held in several places, and objects of other kinds, are the
subject of `Label/Objects` and `Label/Store`.
-/
namespace ThermalLabel

def renderFragments (separator : Text) : List Value → Except Fault Text
  | [] => .ok []
  | fragment :: rest => do
    let s ← fragment.toText
    return s ++ separator ++ (← renderFragments separator rest)

structure Document where
  config : Config
  fragments : List Value := []

namespace Document

def render (d : Document) : Except Fault Text :=
  renderFragments d.config.separator d.fragments

def description (d : Document) : Except Fault Text := do
  let config ← d.config.description
  return ("ZplGenerator(" : Text) ++ config ++ ", fragments=" ++
    Text.ofNat d.fragments.length ++ ")"

def append (d : Document) (fragments : List Value) : Document :=
  { d with fragments := d.fragments ++ fragments }

/-- Performs an operation; what it emitted stays even if it fails. -/
def perform (d : Document) (op : Operation) (a : Arguments) : Document × Emission :=
  let emission := op.emit d.config a
  (d.append emission.fragments, emission)

/-- Performs calls one after another; the first fault ends it. -/
def performAll (d : Document) : List Call → Except Fault Document
  | [] => .ok d
  | call :: rest =>
    let (next, emission) := d.perform call.operation call.arguments
    match emission.outcome with
    | .ok _ => next.performAll rest
    | .error f => .error f

end Document

/-- What can be called on a document. -/
inductive Method where
  | operation (op : Operation)
  | render | text | description | settings | dots
  deriving DecidableEq, Repr

/-- The names of what is no operation. -/
def Method.queries : List (Text × Method) :=
  [("render", .render), ("str", .text), ("repr", .description), ("config", .settings),
    ("get_dots_from_inches", .dots)]

def Method.ofName? (name : Text) : Option Method :=
  (queries.lookup name).or ((Operation.ofName? name).map .operation)

/-- How a call ends: with the document itself, perhaps with a position, or with an answer. -/
inductive Answer where
  | outcome (o : Outcome)
  | result (v : Value)

structure Reply where
  added : List Value := []
  notices : List Notice := []
  answer : Except Fault Answer

namespace Document

/-- The length in inches is the only argument of a conversion; any other list is refused. -/
def conversionArgument (given : List Value) (named : Fields) : Except Fault Value :=
  match given, named with
  | [v], [] => .ok v
  | [], [(name, v)] => if name = "inches" then .ok v else .error .wrongType
  | _, _ => .error .wrongType

def query (d : Document) (m : Method) (given : List Value) (named : Fields) :
    Except Fault Value :=
  match m with
  | .render =>
    if given.isEmpty && named.isEmpty then d.render.map .text else .error .wrongType
  | .text => d.render.map .text
  | .description => d.description.map .text
  | .settings => .ok d.config.toValue
  | .dots => do
    let inches ← conversionArgument given named
    return .integer (← ThermalLabel.dots d.config.dpi inches)
  | .operation _ => .error .wrongType

/-- A call with arguments of any kind. -/
def call (d : Document) (m : Method) (given : List Value) (named : Fields) :
    Document × Reply :=
  match m with
  | .operation op =>
    match bindCall op.fields given named with
    | .error f => (d, { answer := .error f })
    | .ok a =>
      let (next, emission) := d.perform op a
      (next, ⟨emission.fragments, emission.notices, emission.outcome.map .outcome⟩)
  | m => (d, { answer := (d.query m given named).map .result })

end Document

end ThermalLabel
