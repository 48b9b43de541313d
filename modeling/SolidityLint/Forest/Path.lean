import SolidityLint.Forest.Basic

/-!
# Paths

A path names a node below another one by the places of the children to descend
to. A node that occurs at several places is found at the first one in preorder.
The search looks at one place after the other: it stops at a gap that it meets
before the node, and does not end if it runs into a circle first.
-/

namespace SolidityLint

/-- Places of children, from the top down. -/
abbrev Path := List Nat

namespace Forest

/-- What stands at a path: a node, or nothing, if the last place is a gap or lies
past the last child. From nothing there is no way further down. -/
def descend (forest : Forest) : Option NodeId → Path → Except Fault (Option NodeId)
  | node, [] => .ok node
  | none, _ :: _ => .error .notOffered
  | some n, place :: rest =>
    forest.descend ((forest.children n)[place]?.bind forest.occupant?) rest

/-- The nodes at and below a node in preorder, with their paths, down to the given depth. -/
def preorderWithin (forest : Forest) : Nat → NodeId → List (Path × NodeId)
  | 0, _ => []
  | depth + 1, n =>
    ([], n) :: (forest.children n).zipIdx.flatMap fun child =>
      (forest.preorderWithin depth child.1).map fun place => (child.2 :: place.1, place.2)

/-- The nodes at and below a node in preorder, with their paths. -/
def preorder (forest : Forest) (n : NodeId) : List (Path × NodeId) :=
  forest.preorderWithin forest.size n

/-- The path of the first occurrence of a node at or below another, if no walk
before it is longer than the given depth. -/
def pathWithin? (forest : Forest) (target : NodeId) : Nat → NodeId → Except Fault (Option Path)
  | 0, _ => .error .endless
  | depth + 1, n =>
    if n = target then .ok (some [])
    else if forest.label? n = some .gap then .error .notOffered
    else (forest.children n).zipIdx.findSomeM? fun child => do
      return (← forest.pathWithin? target depth child.1).map (child.2 :: ·)

/-- The path of the first occurrence of a node at or below another. -/
def pathTo? (forest : Forest) (top target : NodeId) : Except Fault (Option Path) :=
  forest.pathWithin? target forest.size top

end Forest

end SolidityLint
