import ThermalLabel.Json.Writer
import ThermalLabel.Log.Instant
import ThermalLabel.Log.Message

/-!
# Records

`JsonFormatter.format` with `_extras`.  A record is written as one line of JSON.  First come the
fields that every line has, then the extras of the caller, then an exception and a stack if the
record carries them.  An extra never takes the place of a field that every line has, while the
exception and the stack do take the place of extras of their names.  The attributes that a record
has of its own are no extras.  Of an exception the trace is left out, and the zone is universal
time.
-/
namespace ThermalLabel.Log

/-- What every line says about the deployment. -/
structure Deployment where
  app : String
  version : String
  stage : String
  host : String
  pid : Int
  deriving DecidableEq, Repr

/-- What a record says about an exception. -/
inductive Cause where
  | none
  | described (text : Text)
  /-- Something that a caller gave in place of an exception. -/
  | given (v : Value)

structure Record where
  logger : Value
  level : Value
  message : Value
  values : Values := .several []
  created : Value
  component : Value
  function : Value
  line : Value
  extras : Fields := []
  cause : Cause := .none
  stack : Value := .null

/-- The attributes that a record is made with. -/
def ownAttributes : List Text :=
  ["name", "msg", "args", "levelname", "levelno", "pathname", "filename", "module", "exc_info",
    "exc_text", "stack_info", "lineno", "funcName", "created", "msecs", "relativeCreated",
    "thread", "threadName", "processName", "process"]

/-- The attributes that are never written as extras. -/
def reservedNames : List Text :=
  "message" :: "asctime" :: "taskName" :: ownAttributes

/-- The names of the fields that every line has. -/
def coreNames : List Text :=
  ["ts", "level", "logger", "message", "where", "app", "version", "env", "host", "pid"]

/-- Extras as they are written: of equal names the last value at the place of the first. -/
def shownExtras (extras : Fields) : Fields :=
  (extras.foldl (fun fields e => Fields.set fields e.1 e.2) []).filter fun e =>
    !reservedNames.contains e.1 && !coreNames.contains e.1

def setText (fields : Fields) (name : Text) : Option Text → Fields
  | none => fields
  | some text => fields.set name (.text text)

/-- The part of a line behind the fields that every line has. -/
def detail (extras : Fields) (exception : Option Text) (stack : Value) : Fields :=
  let fields := setText (shownExtras extras) "exception" exception
  if stack.truthy then fields.set "stack" stack else fields

def Deployment.fields (p : Deployment) : Fields :=
  [("app", .text p.app), ("version", .text p.version), ("env", .text p.stage),
    ("host", .text p.host), ("pid", .integer p.pid)]

/-- The text of an exception of a kind; without a description it is the kind alone. -/
def exceptionText (kind description : Text) : Text :=
  if description.isEmpty then kind else kind ++ ": " ++ description

/-- The text of an exception when there is none. -/
def noException : Text := "NoneType: None"

namespace Cause

/-- The second and third part of what is given have to be absent, for they are no exception and
no trace of one. -/
def givenText : Value → Except Error Text
  | .list (_ :: .null :: .null :: _) => .ok noException
  | .list (_ :: _ :: _ :: _) => .error .notException
  | .list _ => .error (.shortException "list")
  | .text s => .error (if s.length < 3 then .shortException "string" else .notException)
  | .object _ => .error .unnamedException
  | _ => .error (.fault .wrongType)

def text? : Cause → Except Error (Option Text)
  | none => .ok .none
  | described text => .ok (some text)
  | given v => if v.truthy then (givenText v).map some else .ok .none

end Cause

/-- The attributes that have an effect on the line, apart from extras. -/
inductive Attribute where
  | logger | level | message | values | created | component | function | line | cause | stack
  deriving DecidableEq, Repr

namespace Attribute

def all : List Attribute :=
  [logger, level, message, values, created, component, function, line, cause, stack]

def name : Attribute → String
  | logger => "name"
  | level => "levelname"
  | message => "msg"
  | values => "args"
  | created => "created"
  | component => "module"
  | function => "funcName"
  | line => "lineno"
  | cause => "exc_info"
  | stack => "stack_info"

def ofName? (name : Text) : Option Attribute :=
  all.find? fun a => Text.ofString a.name == name

end Attribute

namespace Record

def set (r : Record) (v : Value) : Attribute → Record
  | .logger => { r with logger := v }
  | .level => { r with level := v }
  | .message => { r with message := v }
  | .values => { r with values := .single v }
  | .created => { r with created := v }
  | .component => { r with component := v }
  | .function => { r with function := v }
  | .line => { r with line := v }
  | .cause => { r with cause := .given v }
  | .stack => { r with stack := v }

/-- Sets an attribute of any name. -/
def assign (r : Record) (name : Text) (v : Value) : Record :=
  match Attribute.ofName? name with
  | some a => r.set v a
  | none => { r with extras := r.extras ++ [(name, v)] }

def assignAll (r : Record) (attributes : Fields) : Record :=
  attributes.foldl (fun r a => r.assign a.1 a.2) r

/-- Where in the program a record was made. -/
def place (r : Record) : Except Fault Text := do
  return (← r.component.toText) ++ (":" ++ (← r.function.toText)) ++ (":" ++ (← r.line.toText))

def core (p : Deployment) (r : Record) : Except Error Fields := do
  let time ← timestamp r.created
  let message ← messageText r.message r.values
  let place ← liftFault r.place
  let own : Fields := [("ts", .text time), ("level", r.level), ("logger", r.logger),
    ("message", .text message), ("where", .text place)]
  return own ++ p.fields

/-- The fields of a line. -/
def fields (p : Deployment) (r : Record) : Except Error Fields := do
  return (← r.core p) ++ detail r.extras (← r.cause.text?) r.stack

def text (p : Deployment) (r : Record) : Except Error Text := do
  let line := Value.object (← r.fields p)
  if Json.writable line then return Json.write line else throw (.fault .longInteger)

end Record

end ThermalLabel.Log
