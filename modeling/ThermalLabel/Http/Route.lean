import ThermalLabel.Http.Message
import ThermalLabel.Text.Split

/-!
# Routes

The rules of the blueprint that `create_app` registers, and the one for files that every application
has.  A path leads to at most one route, and a route takes some methods.  A path that leads nowhere
but would if each two slashes in a row were one is redirected.
-/
namespace ThermalLabel.Http

inductive Route where
  | sample | render | operations | dots | templates
  | template (name : String)
  /-- A file that goes with pages; there are none. -/
  | asset
  deriving DecidableEq, Repr

namespace Route

/-- The rest of a path names a file: it is not empty, and lies on one line after its start. -/
def isAssetName (name : List Char) : Bool :=
  match name with
  | [] => false
  | c :: rest => c != '/' && !rest.contains '\n'

def ofSegments? : List String → Option Route
  | ["", "api", "sample"] => some sample
  | ["", "api", "render"] => some render
  | ["", "api", "operations"] => some operations
  | ["", "api", "dots"] => some dots
  | ["", "api", "templates"] => some templates
  | ["", "api", "templates", name] => if name = "" then none else some (template name)
  | "" :: "static" :: rest =>
    if isAssetName ("/".intercalate rest).toList then some asset else none
  | _ => none

def ofPath? (path : String) : Option Route :=
  ofSegments? (Text.splitString '/' path)

/-- The route changes nothing and is asked for with `GET`. -/
def isQuery : Route → Bool
  | render | template _ => false
  | _ => true

def methods (r : Route) : List String :=
  if r.isQuery then ["GET", "HEAD", "OPTIONS"] else ["POST", "OPTIONS"]

def allows (r : Route) (verb : String) : Bool :=
  r.methods.contains verb

/-- Responses of the service proper are shared. -/
def isShared (r : Route) : Bool :=
  r != asset

end Route

def mergeSlashes : List Char → List Char
  | '/' :: '/' :: rest => '/' :: mergeSlashes rest
  | c :: rest => c :: mergeSlashes rest
  | [] => []

inductive Resolution where
  | route (r : Route)
  | moved
  | notFound
  | notAllowed
  deriving DecidableEq, Repr

def resolve (path verb : String) : Resolution :=
  match Route.ofPath? path with
  | some r => if r.allows verb then .route r else .notAllowed
  | none => match Route.ofPath? (String.ofList (mergeSlashes path.toList)) with
    | some r => if r.allows verb then .moved else .notAllowed
    | none => .notFound

end ThermalLabel.Http
