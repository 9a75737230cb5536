import ThermalLabel.Fault
import ThermalLabel.Label.Operation
import ThermalLabel.Value.Text

/-!
# Errors in scripts

Every way in which a script is refused, with the wording of its `ScriptError`.  Steps are counted
from zero.  Values are shown in their quoted form.
-/
namespace ThermalLabel.Script

inductive Error where
  | notObject
  | operationsNotList
  | configNotObject
  | unknownSettings (names : List Text)
  | settingNotPositive (name : String) (shown : Text)
  | settingNotFlag (shown : Text)
  | stepNotObject (index : Nat)
  | unknownOperation (index : Nat) (shown : Text)
  | notMember (e : Enumeration) (shown : Text)
  | missingArgument (index : Nat) (op : Operation) (p : Parameter)
  | unknownArgument (index : Nat) (op : Operation) (name : Text)
  | wrongType (index : Nat) (op : Operation) (p : Parameter) (type : FieldType) (shown : Text)
  deriving DecidableEq, Repr

def typeText : FieldType → String
  | .integer => "inteiro"
  | .text => "texto"
  | .flag => "booleano"
  | .optionalText => "texto ou null"
  | .number => "número"
  | .choice e => e.title

def stepText (index : Nat) : String :=
  "operação #" ++ toString index

def callText (index : Nat) (op : Operation) : String :=
  stepText index ++ " (" ++ op.name ++ "): "

def Error.message : Error → Text
  | notObject => "script deve ser um objeto JSON"
  | operationsNotList => "'operations' deve ser uma lista"
  | configNotObject => "'config' deve ser um objeto"
  | unknownSettings names => "config desconhecida: " ++ Text.join ", " names
  | settingNotPositive name shown =>
    "config inválida: '" ++ name ++ "' deve ser inteiro > 0, recebeu " ++ shown
  | settingNotFlag shown =>
    "config inválida: 'suppress_separator' deve ser booleano, recebeu " ++ shown
  | stepNotObject index => stepText index ++ " deve ser um objeto"
  | unknownOperation index shown => stepText index ++ " desconhecida: " ++ shown
  | notMember e shown => "valor inválido para " ++ e.title ++ ": " ++ shown
  | missingArgument index op p =>
    callText index op ++ "missing a required argument: " ++ Text.quoted p.name
  | unknownArgument index op name =>
    callText index op ++ "got an unexpected keyword argument " ++ Text.quoted name
  | wrongType index op p type shown =>
    callText index op ++ "'" ++ p.name ++ "' deve ser " ++ typeText type ++ ", recebeu " ++ shown

/-- A script is refused, or one of its values cannot be written. -/
inductive Failure where
  | error (e : Error)
  | fault (f : Fault)
  deriving DecidableEq, Repr

abbrev Checked (α : Type) := Except Failure α

def refuse {α : Type} (e : Error) : Checked α :=
  .error (.error e)

def liftFault {α : Type} : Except Fault α → Checked α
  | .ok a => .ok a
  | .error f => .error (.fault f)

/-- Refuses a value with an error that shows it. -/
def refuseShowing {α : Type} (v : Value) (e : Text → Error) : Checked α := do
  refuse (e (← liftFault v.quoted))

end ThermalLabel.Script
