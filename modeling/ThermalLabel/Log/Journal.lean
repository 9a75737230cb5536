import ThermalLabel.Log.Channel
import ThermalLabel.Log.File
import ThermalLabel.Log.Record

/-!
# The journal

The loggers of the program with their files, as `setup_logging` leaves them and `log_service`,
`log_audit`, `log_error` and `log_exception` use them.  Setting the journal up gives each logger a
new handler for its file, and one for the console if asked; the handlers of an earlier set-up go.
A record goes to the file of its channel.  Files hold octets, so a record that has no form in octets
is lost.

Time, place and process of a record are left out, and so is what the console shows.
-/
namespace ThermalLabel.Log

/-- What is logged, without time, place and process. -/
structure Event where
  logger : Text
  level : Int
  message : Value
  extras : Fields := []
  exception : Option Text := none

/-- The fields of an entry apart from those about time, place and process. -/
def Event.fields (e : Event) : Except Fault Fields := do
  let message ← e.message.toText
  let own : Fields := [("level", .text (levelName e.level)), ("logger", .text e.logger),
    ("message", .text message)]
  return own ++ detail e.extras e.exception .null

/-- The fields can stand in a file. -/
def storable (fields : Fields) : Bool :=
  let line := Value.object fields
  Json.writable line && (Json.write line).toString?.isSome

/-- The line of an event, if it can be written. -/
def Event.line? (e : Event) : Option Fields :=
  match e.fields with
  | .ok fields => if storable fields then some fields else none
  | .error _ => none

/-- Puts something new in the place of what a channel has. -/
def Channel.put {α : Type} (of : Channel → α) (c : Channel) (a : α) : Channel → α :=
  fun d => if d = c then a else of d

structure Journal where
  /-- The journal has been set up. -/
  ready : Bool := false
  handlers : Channel → List Handler := fun _ => []
  /-- The loggers that were ever asked for. -/
  known : List Text := []
  today : Day := 0
  file : Channel → LogFile := fun _ => {}

namespace Journal

def defaultKept : Int := 7

def setUp (j : Journal) (console : Bool) (kept : Int) : Journal :=
  { j with
    ready := true
    handlers := fun c =>
      .file kept ((j.file c).day j.today) :: if console then [.console] else []
    file := fun c => (j.file c).opened j.today }

/-- Some days pass. -/
def wait (j : Journal) (days : Nat) : Journal :=
  { j with today := j.today + days }

/-- The level from which on the records of a channel count. -/
def threshold (j : Journal) (c : Channel) : Int :=
  if j.ready then c.threshold else 30

/-- Hands a record to the handlers of a channel. -/
def write (j : Journal) (c : Channel) (line : Option Fields) : Journal :=
  let (handlers, file) := Handler.emitAll j.today line (j.handlers c) (j.file c)
  { j with handlers := Channel.put j.handlers c handlers, file := Channel.put j.file c file }

/-- Takes an event to the channel of its logger, if it has one and the level suffices. -/
def submit (j : Journal) (e : Event) : Journal :=
  let j := { j with known := j.known ++ [e.logger] }
  match channelOf j.known e.logger with
  | none => j
  | some c => if e.level < j.threshold c then j else j.write c e.line?

end Journal

/-- The ways in which the program logs. -/
inductive Report where
  | service | audit | error | exception
  deriving DecidableEq, Repr

namespace Report

def channel : Report → Channel
  | service => .service
  | audit => .audit
  | error | exception => .error

def level : Report → Int
  | service | audit => 20
  | error | exception => 40

/-- The name of what is reported, which no extra can have. -/
def subject : Report → Text
  | audit => "action"
  | _ => "message"

end Report

inductive ReportError where
  | duplicateSubject
  | reservedName (name : Text)
  deriving DecidableEq, Repr

def ReportError.message : ReportError → Text
  | duplicateSubject => ""
  | reservedName name =>
    Text.quoted ("Attempt to overwrite " ++ Text.quoted name ++ " in LogRecord")

/-- The names that a report refuses for an extra. -/
def refusedNames : List Text :=
  "message" :: "asctime" :: ownAttributes

namespace Journal

/-- Reports a message with extras.  A name that is not allowed stops a report that would be
written, and nothing is written. -/
def report (j : Journal) (r : Report) (message : Value) (extras : Fields)
    (exception : Option Text) : Except ReportError Journal :=
  if extras.any fun e => e.1 == r.subject then .error .duplicateSubject
  else if r.level < j.threshold r.channel then .ok j
  else match extras.find? fun e => refusedNames.contains e.1 with
    | some e => .error (.reservedName e.1)
    | none =>
      .ok (j.submit { logger := r.channel.logger, level := r.level, message, extras, exception })

end Journal

end ThermalLabel.Log
