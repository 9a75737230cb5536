import ThermalLabel.Http.Body
import ThermalLabel.Http.Target

/-!
# Requests and responses

What the routes read of `request`, and what they set of a response, with the headers of `_add_cors`.
Bodies of requests are characters, and other headers than the media type are left out.
-/
namespace ThermalLabel.Http

structure Request where
  method : String
  target : String
  query : List (String × String) := []
  contentType : String := ""
  body : String := ""
  deriving DecidableEq, Repr

namespace Request

/-- Of parameters with one name the first counts. -/
def parameter? (r : Request) (name : String) : Option String :=
  r.query.lookup name

/-- Methods are told apart without regard to case. -/
def verb (r : Request) : String :=
  r.method.toUpper

/-- Whether the content of the response is sent, however, hangs on the exact method. -/
def wantsContent (r : Request) : Bool :=
  r.method != "HEAD"

/-- A method that is no spelling of `HEAD` has its content sent. -/
theorem wantsContent_of_verb {r : Request} (h : r.verb ≠ "HEAD") : r.wantsContent = true := by
  have hmethod : r.method ≠ "HEAD" := by
    intro hhead
    rw [verb, hhead] at h
    exact absurd (by decide +kernel) h
  simpa [wantsContent] using hmethod

def path (r : Request) : String :=
  pathOf r.target

/-- The value that the body spells; a body that is not JSON stands for null, and one that is
nested too deeply has no value. -/
def json? (r : Request) (levels : Nat) : Option Value :=
  if isJsonType r.contentType then
    match readBody levels r.body with
    | .ok v => some v
    | .error .malformed => some .null
    | .error .tooDeep => none
  else some .null

end Request

inductive Content where
  /-- Nothing, or a page for people. -/
  | page
  | text (s : String)
  | json (v : Value)

structure Response where
  status : Nat
  content : Content := .page
  /-- The response may be used by pages of any origin. -/
  shared : Bool := false

/-- The headers of a shared response, by the ends of their names. -/
def sharingHeaders : List (String × String) :=
  [("Origin", "*"), ("Headers", "Content-Type"), ("Methods", "GET, POST, OPTIONS")]

namespace Response

def ok (v : Value) : Response :=
  { status := 200, content := .json v }

def document (text : String) : Response :=
  { status := 200, content := .text text }

def refusal (status : Nat) (error : Text) : Response :=
  { status, content := .json (.object [("success", .flag false), ("error", .text error)]) }

end Response

end ThermalLabel.Http
