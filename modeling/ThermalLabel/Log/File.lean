import ThermalLabel.Value

/-!
# Log files

The file that the handler made by `_file_handler` writes to, and the dated files that it leaves
behind.  The first record of a later day finds a file whose day is over: the file takes a dated
name, a new one is begun, and of the dated files only the newest ones stay.  Time is counted in
days, for nothing else decides when a file is over, and days do not run backwards.  Other files in
the directory are left out; the names of dated files give nothing but their days.
-/
namespace ThermalLabel.Log

/-- Days are counted from some day on. -/
abbrev Day := Nat

structure LogFile where
  lines : List Fields := []
  /-- The day on which the file was last written to or, without a line, was begun.  There is no
  file before the first handler opens it. -/
  touched : Option Day := none
  /-- The files that have a dated name, with their days, the oldest first. -/
  dated : List (Day × List Fields) := []

namespace LogFile

/-- The day whose end is the end of the file, if a handler opens it now. -/
def day (f : LogFile) (today : Day) : Day :=
  f.touched.getD today

/-- Opening a file begins it if there is none. -/
def opened (f : LogFile) (today : Day) : LogFile :=
  { f with touched := some (f.day today) }

def append (f : LogFile) (line : Fields) (today : Day) : LogFile :=
  { f with lines := f.lines ++ [line], touched := some today }

/-- The newest dated files, as many as are kept; a number that is not positive keeps all. -/
def newest (kept : Int) (dated : List (Day × List Fields)) : List (Day × List Fields) :=
  if 0 < kept then dated.drop (dated.length - kept.toNat) else dated

/-- The file takes the name of a day, in the place of a file of that name, and a new one is
begun. -/
def rotate (f : LogFile) (kept : Int) (since today : Day) : LogFile where
  lines := []
  touched := some today
  dated := newest kept (f.dated.filter (·.1 != since) ++ [(since, f.lines)])

/-- A file of an earlier day is over. -/
def turn (f : LogFile) (kept : Int) (since today : Day) : LogFile :=
  if since < today then f.rotate kept since today else f

/-- Takes a record, be it without a line: that cannot be written, but finds out that the day is
over. -/
def receive (f : LogFile) (kept : Int) (since today : Day) (line : Option Fields) : LogFile :=
  let turned := f.turn kept since today
  match line with
  | some fields => turned.append fields today
  | none => turned

/-- All lines that are left, the oldest first. -/
def all (f : LogFile) : List Fields :=
  f.dated.flatMap (·.2) ++ f.lines

end LogFile

inductive Handler where
  /-- Writes to the file of the channel, which is over with the day, and keeps so many old ones. -/
  | file (kept : Int) (since : Day)
  | console

namespace Handler

def emit (today : Day) (line : Option Fields) (f : LogFile) : Handler → Handler × LogFile
  | file kept since => (file kept (max since today), f.receive kept since today line)
  | console => (console, f)

/-- All handlers of a logger take the record, one after another. -/
def emitAll (today : Day) (line : Option Fields) : List Handler → LogFile → List Handler × LogFile
  | [], f => ([], f)
  | h :: rest, f =>
    let (next, f) := h.emit today line f
    let (others, f) := emitAll today line rest f
    (next :: others, f)

end Handler

end ThermalLabel.Log
