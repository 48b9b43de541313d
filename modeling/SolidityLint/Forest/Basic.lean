import SolidityLint.Fault
import SolidityLint.Forest.RuleLabel

/-!
# Forests

A forest holds the nodes of parse trees. Nodes are known by their number, so
that a node keeps its identity when it is attached elsewhere. The children of a
node and the parent of a node are separate facts: attaching a node to a second
parent does not take it from the first one, and a child can be appended without
a link back.

A place among the children of a node may be empty. A node that is nothing but a
gap stands there: it counts as a child, and has no text.

Walks are bounded by the number of nodes. A walk down that is longer comes back
to where it was, because children can be appended in a circle, and is refused.
-/

namespace SolidityLint

/-- The number of a node in its forest. -/
abbrev NodeId := Nat

/-- A token: its type and its text. -/
structure Token where
  type : Int
  text : String
deriving DecidableEq, Repr

/-- What a node is. -/
inductive Label where
  /-- A node of a grammar rule. -/
  | rule (label : RuleLabel)
  /-- A token, perhaps one that the parser could not place. -/
  | token (token : Token) (erroneous : Bool)
  /-- Nothing: the place of a child is empty. -/
  | gap
deriving DecidableEq, Repr

/-- The kind of nodes with a label. -/
def Label.kind : Label → Kind
  | .rule label => label.kind
  | .token _ true => .error
  | .token _ false => .terminal
  | .gap => .other

/-- A node. -/
structure Node where
  label : Label
  children : List NodeId := []
  parent : Option NodeId := none
deriving DecidableEq, Repr

/-- The nodes of parse trees, by number. -/
structure Forest where
  nodes : Array Node := #[]
deriving DecidableEq, Repr

namespace Forest

/-- The node with a number. -/
def node? (forest : Forest) (n : NodeId) : Option Node := forest.nodes[n]?

/-- The number of nodes. -/
def size (forest : Forest) : Nat := forest.nodes.size

/-- The label of a node. -/
def label? (forest : Forest) (n : NodeId) : Option Label := (forest.node? n).map (·.label)

/-- The children of a node, in order. -/
def children (forest : Forest) (n : NodeId) : List NodeId :=
  ((forest.node? n).map (·.children)).getD []

/-- The parent link of a node. -/
def parent? (forest : Forest) (n : NodeId) : Option NodeId := (forest.node? n).bind (·.parent)

/-- The label of a rule node. -/
def ruleLabel? (forest : Forest) (n : NodeId) : Option RuleLabel :=
  match forest.label? n with
  | some (.rule label) => some label
  | _ => none

/-- The token of a terminal. -/
def token? (forest : Forest) (n : NodeId) : Option Token :=
  match forest.label? n with
  | some (.token token _) => some token
  | _ => none

/-- Whether a node is a rule node. -/
def isRule (forest : Forest) (n : NodeId) : Bool := (forest.ruleLabel? n).isSome

/-- Whether a node is a terminal. -/
def isTerminal (forest : Forest) (n : NodeId) : Bool := (forest.token? n).isSome

/-- The kind of a node. -/
def kind (forest : Forest) (n : NodeId) : Kind := ((forest.label? n).map (·.kind)).getD .other

/-- What stands at a place among children: the node, unless it is a gap. -/
def occupant? (forest : Forest) (n : NodeId) : Option NodeId :=
  if forest.label? n = some .gap then none else some n

/-- The text of a node, if no walk down from it is longer than the given depth. -/
def textWithin (forest : Forest) : Nat → NodeId → Except Fault String
  | 0, _ => .error .endless
  | depth + 1, n =>
    match forest.label? n with
    | some (.token token _) => .ok token.text
    | some (.rule _) => do
      return String.join (← (forest.children n).mapM (forest.textWithin depth))
    | _ => .error .notOffered

/-- The text of a node: a terminal's own, else the texts of the children in a row.
The first child, from the left, that has no text decides the fault. -/
def text (forest : Forest) (n : NodeId) : Except Fault String := forest.textWithin forest.size n

/-- The nodes above a node, nearest first, up to the given height. -/
def ancestorsWithin (forest : Forest) : Nat → NodeId → List NodeId
  | 0, _ => []
  | height + 1, n =>
    match forest.parent? n with
    | some parent => parent :: forest.ancestorsWithin height parent
    | none => []

/-- The nodes above a node by the parent links, nearest first. -/
def ancestors (forest : Forest) (n : NodeId) : List NodeId := forest.ancestorsWithin forest.size n

/-- Adds a node without children. -/
def add (forest : Forest) (label : Label) (parent : Option NodeId) : Forest × NodeId :=
  (⟨forest.nodes.push { label, parent }⟩, forest.size)

/-- Changes a node. -/
def modify (forest : Forest) (n : NodeId) (change : Node → Node) : Forest :=
  ⟨forest.nodes.modify n change⟩

/-- Appends a child to a node; the child's parent link stays as it is. -/
def appendChild (forest : Forest) (parent child : NodeId) : Forest :=
  forest.modify parent fun node => { node with children := node.children ++ [child] }

/-- Sets the parent link of a node. -/
def setParent (forest : Forest) (n parent : NodeId) : Forest :=
  forest.modify n fun node => { node with parent := some parent }

end Forest

end SolidityLint
