import ThermalLabel.Label.Sample
import ThermalLabel.Storage.Tree
import ThermalLabel.Template.Engine
import ThermalLabel.Template.Packaged
import ThermalLabel.Template.Reader

/-!
# Template directories

`list_templates`, and `render_template` and `render_zpl` with the environment that `make_env` makes.
A directory lists everything in it that has the suffix of a template.  A template is rendered if its
name leads to a regular file.  What the service asks for is any `Renderer`; the one of this module
knows the template language of this library only.
-/
namespace ThermalLabel.Template

open Storage (Tree Path Node)

def templateSuffix : List Char := ".zpl.j2".toList

def isTemplateName (name : String) : Bool :=
  templateSuffix.isSuffixOf name.toList

/-- The names of the templates in a directory, in the order of code points. -/
def list (t : Tree) (dir : Path) : List String :=
  ((t.names dir).filter isTemplateName).mergeSort fun a b => decide (a ≤ b)

/-- The path that a name leads to; no name leads upwards. -/
def pathOf? (name : String) : Option Path :=
  let path := Path.ofString name
  if path.contains ".." then none else some path

/-- The text of the template that a name leads to, if it is a regular file. -/
def find? (t : Tree) (dir : Path) (name : String) : Option String :=
  match pathOf? name with
  | none => none
  | some p => match t.get? (dir ++ p) with
    | some (.file text) => some text
    | _ => none

/-- What a template gives for a label of its own; a text that is no template gives nothing. -/
def renderText (text : String) (config : Config) (context : Context) : Except Fault Text :=
  match program? text.toList with
  | some program => run program config context
  | none => .error .notTemplate

/-- A directory that holds just the packaged template. -/
def packagedTree : Tree :=
  ⟨[([packagedName], .file packagedText)]⟩

inductive RenderError where
  | notFound
  | fault (f : Fault)
  /-- Any other failure: what it says, and its trace. -/
  | raised (message trace : Text)
  deriving DecidableEq, Repr

namespace RenderError

/-- What a failure says; that of a missing template is not asked for. -/
def message : RenderError → Text
  | notFound => []
  | fault f => f.message
  | raised message _ => message

def trace : RenderError → Text
  | raised _ trace => trace
  | e => e.message

end RenderError

/-- What makes a document of the template that a name leads to in a directory. -/
abbrev Renderer :=
  Tree → Path → String → Config → Context → Except RenderError Text

def render (t : Tree) (dir : Path) (name : String) (config : Config) (context : Context) :
    Except RenderError Text :=
  match find? t dir name with
  | none => .error .notFound
  | some text => match renderText text config context with
    | .ok s => .ok s
    | .error f => .error (.fault f)

/-- The names that are taken, next to those of a context. -/
def reservedNames : List Text :=
  ["env", "template_name", "config"]

/-- A template if there is one of that name, else the demonstration label with the text of the
context. -/
def renderOrSample (t : Tree) (dir : Path) (name : String) (config : Config)
    (context : Context) : Except Fault Text :=
  if context.any fun e => reservedNames.contains e.1 then .error .wrongType
  else
    let given := (context.get? "texto").getD .null
    let sample := Sample.render config (if given.truthy then given else .text Sample.defaultText)
    if name = "" then sample
    else match find? t dir name with
      | none => sample
      | some text => renderText text config context

end ThermalLabel.Template
