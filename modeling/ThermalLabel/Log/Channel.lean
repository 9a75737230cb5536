import ThermalLabel.Text.CodePoint

/-!
# Channels

The loggers of `LOGGER_LEVELS`: three channels, each with a logger and a file of its own.  A logger
below that of a channel, by dotted names, hands its records on to the channel.  Filters, and levels
and handlers that others give to loggers, are left out.
-/
namespace ThermalLabel.Log

inductive Channel where
  | service | audit | error
  deriving DecidableEq, Repr

namespace Channel

def all : List Channel := [service, audit, error]

def name : Channel → String
  | service => "service"
  | audit => "audit"
  | error => "error"

def logger (c : Channel) : String :=
  "zplgen." ++ c.name

/-- Records below this level are left out. -/
def threshold : Channel → Int
  | service | audit => 20
  | error => 30

def ofLogger? (logger : Text) : Option Channel :=
  all.find? fun c => Text.ofString c.logger == logger

end Channel

def levelName (level : Int) : String :=
  match level with
  | 10 => "DEBUG"
  | 20 => "INFO"
  | 30 => "WARNING"
  | 40 => "ERROR"
  | 50 => "CRITICAL"
  | n => "Level " ++ toString n

/-- The names above a name, given back to front, the nearest first: what stands before each dot.
Of two dots in a row only the latter counts, and nothing stands before a dot at the start. -/
def namesAbove : Text → List Text
  | [] => []
  | .char '.' :: c :: rest => (c :: rest) :: namesAbove rest
  | _ :: rest => namesAbove rest

theorem length_of_mem_namesAbove (s p : Text) (h : p ∈ namesAbove s) :
    p.length < s.length := by
  fun_induction namesAbove s with
  | case1 => simp at h
  | case2 c rest ih =>
    rcases List.mem_cons.1 h with rfl | h
    · simp
    · have := ih h
      simp only [List.length_cons]
      omega
  | case3 c rest _ ih =>
    have := ih h
    simp only [List.length_cons]
    omega

/-- The channel of a logger whose name is given back to front.  The logger above another one is
the nearest that is known. -/
def channelAbove (known : List Text) (s : Text) : Option Channel :=
  match Channel.ofLogger? s.reverse with
  | some c => some c
  | none =>
    match h : (namesAbove s).find? fun p => known.contains p.reverse with
    | none => none
    | some p =>
      have := length_of_mem_namesAbove s p (List.mem_of_find?_eq_some h)
      channelAbove known p
termination_by s.length

/-- The channel that takes the records of a logger. -/
def channelOf (known : List Text) (logger : Text) : Option Channel :=
  channelAbove ((Channel.all.map fun c => Text.ofString c.logger) ++ known) logger.reverse

end ThermalLabel.Log
