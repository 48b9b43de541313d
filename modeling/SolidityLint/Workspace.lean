import SolidityLint.Forest.Path
import SolidityLint.Forest.Sketch

/-!
# Workspaces

A workspace is a forest some of whose nodes have names. Names are kept in the
order in which they were first given; giving a name again keeps its place. A name
may also be given to no node. A node is located by the first name below which it
is found; the search stops at a name without a node that it meets before.
-/

namespace SolidityLint

/-- A forest with named nodes. -/
structure Workspace where
  forest : Forest := {}
  names : List (String × Option NodeId) := []

/-- What is shown of a node: where it is found, its kind and its text. -/
structure NodeView where
  place : Option (String × Path)
  kind : Kind
  text : String
deriving DecidableEq, Repr

namespace Workspace

/-- What a name stands for. -/
def named? (workspace : Workspace) (name : String) : Option (Option NodeId) :=
  (workspace.names.find? (·.1 == name)).map (·.2)

/-- What stands at a path from a name. -/
def resolve (workspace : Workspace) (name : String) (path : Path) :
    Except Fault (Option NodeId) :=
  match workspace.named? name with
  | some node => workspace.forest.descend node path
  | none => .error .unknownName

/-- Gives a name to a node. -/
def bind (workspace : Workspace) (name : String) (node : Option NodeId) : Workspace :=
  let names := workspace.names
  if names.any (·.1 == name) then
    { workspace with
      names := names.map fun entry => if entry.1 == name then (name, node) else entry }
  else { workspace with names := names ++ [(name, node)] }

/-- The first name below which a node is found, with its path from there. -/
def locate? (workspace : Workspace) (n : NodeId) : Except Fault (Option (String × Path)) :=
  workspace.names.findSomeM? fun entry => do
    match entry.2 with
    | none => throw .notOffered
    | some top => return (← workspace.forest.pathTo? top n).map fun path => (entry.1, path)

/-- What is shown of a node. -/
def view (workspace : Workspace) (n : NodeId) : Except Fault NodeView := do
  let place ← workspace.locate? n
  return { place, kind := workspace.forest.kind n, text := ← workspace.forest.text n }

/-- Takes over the outcome of building; what was built may get a name. -/
def accept (workspace : Workspace) (name : Option String)
    (built : Forest × Except Fault (Option NodeId)) :
    Workspace × Except Fault (Option NodeId) :=
  let workspace := { workspace with forest := built.1 }
  match built.2, name with
  | .ok node, some name => (workspace.bind name node, .ok node)
  | outcome, _ => (workspace, outcome)

end Workspace

end SolidityLint
