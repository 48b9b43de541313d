import SolidityLint.Query.Navigation

/-!
# Else clauses

The else branch of an if statement is the first child after the keyword that is
no terminal; a gap at that place is no branch. An `else if` is an if statement that
stands first in the else branch of another one. It can be told from above, by the
shape of the branch, and from below, by the parent links.
-/

namespace SolidityLint

/-- What follows the then branch of an if statement. -/
inductive ElseClause where
  | absent
  | plain
  | elseIf
deriving DecidableEq, Repr

/-- The word for an else clause. -/
def ElseClause.word : ElseClause → String
  | .absent => "none"
  | .plain => "else"
  | .elseIf => "else-if"

namespace Forest

/-- The first node from `mark` on, which is a terminal, that is no terminal. -/
def ruleAfter? (forest : Forest) (mark : NodeId) (nodes : List NodeId) : Option NodeId :=
  ((nodes.dropWhile (· != mark)).find? fun n => !forest.isTerminal n).bind forest.occupant?

/-- The branch that follows the keyword `else`. -/
def elseBranch (forest : Forest) (vocabulary : Vocabulary) (node : Option NodeId) :
    Traced (Option NodeId) := do
  match ← forest.findTerminal vocabulary node (Vocabulary.inQuotes "else") with
  | none => return none
  | some keyword => return forest.ruleAfter? keyword (forest.ruleChildren node)

/-- Whether a node begins with an if statement. -/
def beginsWithIf (forest : Forest) (n : NodeId) : Bool :=
  forest.isKind (forest.children n).head? .ifStatement

/-- The else branch of an if statement, unless it is empty or an `else if`. -/
def plainElse (forest : Forest) (vocabulary : Vocabulary) (n : NodeId) :
    Checked (Option NodeId) := do
  demand (forest.kind n == .ifStatement) (.ifStatement (← forest.readText n))
  let branch ← forest.elseBranch vocabulary (some n)
  return branch.filter fun b => !(forest.children b).isEmpty && !forest.beginsWithIf b

/-- The else clause of an if statement. -/
def elseClause (forest : Forest) (vocabulary : Vocabulary) (n : NodeId) : Checked ElseClause := do
  demand (forest.kind n == .ifStatement) (.ifStatement (← forest.readText n))
  match ← forest.elseBranch vocabulary (some n) with
  | none => return .absent
  | some branch => return if forest.beginsWithIf branch then .elseIf else .plain

/-- Whether the node's parent is a statement that is the else branch of an if
statement. -/
def isElseIf (forest : Forest) (vocabulary : Vocabulary) (n : NodeId) : Traced Bool := do
  match (forest.parent? n).filter fun statement => forest.kind statement == .statement with
  | none => return false
  | some statement =>
    match (forest.parent? statement).filter fun outer => forest.kind outer == .ifStatement with
    | none => return false
    | some outer => return (← forest.elseBranch vocabulary (some outer)) == some statement

end Forest

end SolidityLint
