import ThermalLabel.Template.Directory

/-!
# The data directory

`init_data_layout` with `_copy_if_missing`.  The data directory holds a directory of templates and
one of logs.  Setting it up makes what is missing and copies every packaged template for which the
template directory has no entry of that name; nothing that exists is changed.  Of what can go wrong
only entries are modelled that stand in the way; rights and room are left out.
-/
namespace ThermalLabel.Storage

def templatesDir : Path := ["zpl_templates"]
def logsDir : Path := ["logs"]

/-- The directories by name, below the data directory. -/
def dataDirs : List (String × Path) :=
  [("root", []), ("templates", templatesDir), ("logs", logsDir)]

/-- Makes directories in order; on failure gives the tree as far as it came. -/
def makeAll (t : Tree) : List Path → Tree × Except TreeError Unit
  | [] => (t, .ok ())
  | p :: rest => match t.makeDirectory p with
    | .ok next => makeAll next rest
    | .error e => (t, .error e)

/-- Copies one packaged template into a directory unless the name is taken. -/
def seed (packaged : Tree) (dir : Path) (t : Tree) (name : String) : Tree :=
  match packaged.get? [name], t.get? (dir ++ [name]) with
  | some (.file text), none => t.set (dir ++ [name]) (.file text)
  | _, _ => t

def seedAll (packaged : Tree) (dir : Path) (t : Tree) : Tree :=
  ((packaged.names []).filter Template.isTemplateName).foldl (seed packaged dir) t

/-- Sets up the data directory at a path; a missing packaged directory has nothing to copy. -/
def setUpAt (root : Path) (packaged : Option Tree) (t : Tree) : Tree × Except TreeError Unit :=
  match makeAll t (dataDirs.map fun dir => root ++ dir.2) with
  | (made, .error e) => (made, .error e)
  | (made, .ok ()) => match packaged with
    | none => (made, .ok ())
    | some source => (seedAll source (root ++ templatesDir) made, .ok ())

/-- Sets up a tree that is a data directory itself. -/
def setUp (packaged : Option Tree) (t : Tree) : Tree × Except TreeError Unit :=
  setUpAt [] packaged t

end ThermalLabel.Storage
