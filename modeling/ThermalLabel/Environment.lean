import ThermalLabel.Label.Config
import ThermalLabel.Text.Lowercase
import ThermalLabel.Text.Split

/-!
# Settings from the environment

What `_env_int` and `_env_bool` read, and the constants that are made with them.  Variables that
are absent or blank leave a setting at its default, and so does a number that cannot be read.  A
truth value is true for a few words and false for every other one.  The data directory is given
only if the environment names one, as `get_data_root` asks first; the home of the user is left out.
-/
namespace ThermalLabel

/-- The variables of a process, by name. -/
abbrev Environment := List (String × Text)

namespace Environment

/-- The number that a variable gives, if it gives one. -/
def givenInt? (raw : Option Text) : Option Int :=
  match Text.strip (raw.getD []) with
  | [] => none
  | s => (Number.readInteger s).toOption

def readInt (raw : Option Text) (default : Int) : Int :=
  (givenInt? raw).getD default

/-- The words for true; settings also know "on". -/
def trueWords : List Text :=
  ["1", "true", "yes", "sim"]

def isTrueWord (words : List Text) (s : Text) : Bool :=
  words.contains (Text.lower s)

/-- The truth value that a variable gives, unless it is blank. -/
def givenBool? (raw : Option Text) : Option Bool :=
  match Text.strip (raw.getD []) with
  | [] => none
  | s => some (isTrueWord ("on" :: trueWords) s)

def readBool (raw : Option Text) (default : Bool) : Bool :=
  (givenBool? raw).getD default

/-- The components of a path that matter. -/
def pathParts (path : Text) : List Text :=
  (Text.split (.char '/') path).filter fun part => part ≠ [] ∧ part ≠ "."

/-- The start of an absolute path; exactly two slashes are kept as they are. -/
def pathRoot : Text → Text
  | .char '/' :: .char '/' :: .char '/' :: _ => "/"
  | .char '/' :: .char '/' :: _ => "//"
  | .char '/' :: _ => "/"
  | _ => []

/-- A path without doubled slashes, without components that stay in place, and without a slash
at its end. -/
def normalPath (path : Text) : Text :=
  match pathRoot path ++ Text.join "/" (pathParts path) with
  | [] => "."
  | normal => normal

def appName : String := "ZplGenerator"

def get (env : Environment) (name : String) (default : Text) : Text :=
  (env.lookup name).getD default

def dpi (env : Environment) : Int :=
  readInt (env.lookup "ZPLGEN_DPI") 203

def maxWidth (env : Environment) : Int :=
  readInt (env.lookup "ZPLGEN_MAX_WIDTH") 710

def suppressSeparator (env : Environment) : Bool :=
  readBool (env.lookup "ZPLGEN_SUPPRESS_SEPARATOR") true

/-- The settings under which a process works unless told otherwise. -/
def config (env : Environment) : Config :=
  ⟨.integer env.dpi, .integer env.maxWidth, .flag env.suppressSeparator⟩

def appVersion (env : Environment) : Text :=
  env.get "ZPLGEN_APP_VERSION" "dev"

def stage (env : Environment) : Text :=
  env.get "ZPLGEN_ENV" "prd"

def host (env : Environment) : Text :=
  env.get "ZPLGEN_HOST" "127.0.0.1"

def tcpPort (env : Environment) : Int :=
  readInt (env.lookup "ZPLGEN_PORT") 8000

/-- The directory of the data, if the environment names one. -/
def dataHome? (env : Environment) : Option Text :=
  match env.lookup "ZPLGEN_HOME" with
  | none | some [] => none
  | some path => some (normalPath path)

end Environment

end ThermalLabel
