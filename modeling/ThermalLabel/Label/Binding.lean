import ThermalLabel.Fault
import ThermalLabel.Label.Operation

/-!
# Binding arguments to fields

How a call of a method of `ZplGenerator` takes its arguments: by position, by name, or not at all
where the field has a value of its own.  The label itself, the first argument, is left out.
-/
namespace ThermalLabel

/-- Pairs each field with the argument at its position. -/
def byPosition {V : Type} : List Field → List V → List (Parameter × V)
  | f :: fields, v :: rest => (f.parameter, v) :: byPosition fields rest
  | _, _ => []

/-- The value of a field: the argument given for it, else its own. -/
def Field.valueFrom (named : Fields) (f : Field) : Option Value :=
  (named.get? f.parameter.name).or f.default?

def byName (named : Fields) (fields : List Field) : List (Parameter × Value) :=
  fields.filterMap fun f => (f.valueFrom named).map fun v => (f.parameter, v)

def Arguments.ofList (bound : List (Parameter × Value)) : Arguments :=
  fun p => (bound.lookup p).getD .null

/-- The arguments of a call, refused when there are too many, when a name is unknown or names a
field that has its argument already, and when a required field has none. -/
def bindCall (fields : List Field) (given : List Value) (named : Fields) :
    Except Fault Arguments :=
  let free := fields.drop given.length
  if fields.length < given.length then .error .wrongType
  else if named.any fun entry => !free.any fun f => f.parameter.isNamed entry.1 then
    .error .wrongType
  else if free.any fun f => (f.valueFrom named).isNone then .error .wrongType
  else .ok (Arguments.ofList (byPosition fields given ++ byName named free))

/-- An operation together with the values of its fields. -/
structure Call where
  operation : Operation
  arguments : Arguments

/-- A call with the given fields; the others keep their own values. -/
def Call.of (op : Operation) (given : List (Parameter × Value)) : Call :=
  ⟨op, fun p => match given.lookup p with
    | some v => v
    | none => ((op.fields.find? (·.parameter == p)).bind (·.default?)).getD .null⟩

end ThermalLabel
