import ThermalLabel.Text.Split

/-!
# File trees

A tree gives what stands at each path below its root, which is a directory itself.  Changing a
tree adds a path or replaces what stands there.  Links, rights and times are left out, and files
hold texts.
-/
namespace ThermalLabel.Storage

abbrev Path := List String

/-- The components of a path that matter: nothing between two slashes is none, and a dot stays
in place. -/
def Path.ofString (s : String) : Path :=
  (Text.splitString '/' s).filter fun part => part != "" && part != "."

inductive Node where
  | file (text : String)
  | directory
  deriving DecidableEq, Repr

inductive TreeError where
  | fileExists | notDirectory | isDirectory
  deriving DecidableEq, Repr

structure Tree where
  entries : List (Path × Node) := []
  deriving Repr

namespace Tree

def get? (t : Tree) (p : Path) : Option Node :=
  if p = [] then some .directory else t.entries.lookup p

def isDirectory (t : Tree) (p : Path) : Bool :=
  t.get? p == some .directory

def set (t : Tree) (p : Path) (n : Node) : Tree :=
  if t.entries.any (·.1 == p) then
    ⟨t.entries.map fun e => if e.1 == p then (p, n) else e⟩
  else ⟨t.entries ++ [(p, n)]⟩

/-- Makes the directory `done ++ path` with all directories on the way to it below `done`. -/
def makeBelow (t : Tree) (done : Path) : Path → Except TreeError Tree
  | [] => .ok t
  | name :: rest =>
    let here := done ++ [name]
    match t.get? here with
    | none => (t.set here .directory).makeBelow here rest
    | some .directory => t.makeBelow here rest
    | some (.file _) => .error (if rest.isEmpty then .fileExists else .notDirectory)

def makeDirectory (t : Tree) (p : Path) : Except TreeError Tree :=
  t.makeBelow [] p

/-- Writes a file, with the directories on the way to it. -/
def write (t : Tree) (p : Path) (text : String) : Except TreeError Tree := do
  let t ← t.makeDirectory p.dropLast
  if t.isDirectory p then throw .isDirectory else return t.set p (.file text)

/-- The names in a directory. -/
def names (t : Tree) (dir : Path) : List String :=
  t.entries.filterMap fun e =>
    match e.1.getLast? with
    | some name => if e.1.dropLast == dir then some name else none
    | none => none

end Tree

end ThermalLabel.Storage
