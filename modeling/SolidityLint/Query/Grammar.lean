import SolidityLint.Query.Navigation

/-!
# Rules and token types of nodes

What a node knows about its place in the grammar. Rule nodes whose label comes
from this library's table know their rule, if their label declares a kind. Rule
nodes from elsewhere only say that their rule has no number here.
-/

namespace SolidityLint.Forest

/-- The label of a rule node that may be absent. -/
def requireRule (forest : Forest) (node : Option NodeId) : Except Fault RuleLabel :=
  match node.bind forest.ruleLabel? with
  | some label => .ok label
  | none => .error .notOffered

/-- The number of a node's rule; -1 if it has none. -/
def ruleIndex (forest : Forest) (node : Option NodeId) : Except Fault Int := do
  let label ← forest.requireRule node
  if label.native then
    match label.declared with
    | some kind => return (kind.ruleIndex?.map Int.ofNat).getD (-1)
    | none => throw .notOffered
  else return -1

/-- The name of a node's rule. -/
def ruleName (forest : Forest) (node : Option NodeId) : Except Fault (Option String) := do
  let label ← forest.requireRule node
  match label.declared.filter fun _ => label.native with
  | some kind => return kind.ruleName?
  | none => throw .notOffered

/-- The token type of a terminal. -/
def tokenType (forest : Forest) (node : Option NodeId) : Except Fault Int :=
  match node.bind forest.token? with
  | some token => .ok token.type
  | none => .error .notOffered

end SolidityLint.Forest
