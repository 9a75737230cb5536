import ThermalLabel.Label.Binding
import ThermalLabel.Script.Choice
import ThermalLabel.Script.Settings

/-!
# Steps of a script

`_call` with `_check_types`, `_is_int` and `_is_number`.  A step is an object that names its
operation and gives its fields.  Choices are read first, then missing and unknown fields are
reported, then the types of the given fields are checked in the order of the operation's fields.
-/
namespace ThermalLabel.Script

def accepts : FieldType → Value → Bool
  | .integer, v => isInteger v
  | .text, .text _ => true
  | .flag, .flag _ => true
  | .optionalText, .text _ => true
  | .optionalText, .null => true
  | .number, .double _ => true
  | .number, v => isInteger v
  | .choice _, _ => true
  | _, _ => false

/-- The given fields with each choice replaced by what it stands for. -/
def readChoices : List Field → Fields → Checked Fields
  | [], given => .ok given
  | f :: rest, given =>
    match f.type, given.get? f.parameter.name with
    | .choice e, some v => do
      let chosen ← choose e v
      readChoices rest (given.map fun entry =>
        if f.parameter.isNamed entry.1 then (entry.1, chosen) else entry)
    | _, _ => readChoices rest given

def checkNames (index : Nat) (op : Operation) (given : Fields) : Checked Unit :=
  match op.fields.find? fun f => (f.valueFrom given).isNone with
  | some f => refuse (.missingArgument index op f.parameter)
  | none =>
    match given.find? fun entry => !op.fields.any fun f => f.parameter.isNamed entry.1 with
    | some (name, _) => refuse (.unknownArgument index op name)
    | none => .ok ()

def checkTypes (index : Nat) (op : Operation) (given : Fields) : List Field → Checked Unit
  | [] => .ok ()
  | f :: rest =>
    match given.get? f.parameter.name with
    | some v =>
      if accepts f.type v then checkTypes index op given rest
      else refuseShowing v (.wrongType index op f.parameter f.type)
    | none => checkTypes index op given rest

def operationOf (index : Nat) (fields : Fields) : Checked Operation :=
  let given := (fields.get? "op").getD .null
  match given with
  | .text name => match Operation.ofName? name with
    | some op => .ok op
    | none => refuseShowing given (.unknownOperation index)
  | _ => refuseShowing given (.unknownOperation index)

def bindStep (index : Nat) (op : Operation) (given : Fields) : Checked Call := do
  let given ← readChoices op.fields given
  checkNames index op given
  checkTypes index op given op.fields
  return ⟨op, Arguments.ofList (byName given op.fields)⟩

def readStep (index : Nat) (step : Value) : Checked Call :=
  match step with
  | .object fields => do
    let op ← operationOf index fields
    bindStep index op (fields.filter fun entry => entry.1 ≠ "op")
  | _ => refuse (.stepNotObject index)

end ThermalLabel.Script
