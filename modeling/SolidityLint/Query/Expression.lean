import SolidityLint.Query.Navigation

/-!
# Expressions

Parenthesized expressions, comparisons, and statements with a conditional
expression.
-/

namespace SolidityLint

/-- The operators that compare. -/
def comparingOperators : List String := ["!=", "<", "<=", "==", ">", ">="]

namespace Forest

/-- Whether a text begins with an opening and ends with a closing parenthesis. -/
def inParentheses (text : String) : Bool :=
  text.toList.head? == some '(' && text.toList.getLast? == some ')'

/-- Whether a node is an expression whose text is in parentheses. Only the text
counts: the two parentheses need not belong together. -/
def isParenthesized (forest : Forest) (node : Option NodeId) : Except Fault Bool :=
  match node.filter fun n => forest.kind n == .expression with
  | none => .ok false
  | some n => do return inParentheses (← forest.text n)

/-- The second of three children, of which the outer two are parentheses. -/
def wrappedChild? (forest : Forest) (n : NodeId) : Except Fault (Option NodeId) :=
  match forest.children n with
  | [opening, inner, closing] => do
    let before ← forest.text opening
    let after ← forest.text closing
    return if before = "(" ∧ after = ")" then some inner else none
  | _ => .ok none

/-- The inner node of a parenthesized expression. -/
def unwrapParentheses (forest : Forest) (n : NodeId) : Checked NodeId := do
  let text ← forest.readText n
  demand (← Checked.ofExcept (forest.isParenthesized (some n))) (.parenthesized text)
  match ← Checked.ofExcept (forest.wrappedChild? n) with
  | some inner => return inner
  | none => reject (.wrapped text)

/-- Whether a node is an expression whose second child is a comparing operator. -/
def isComparison (forest : Forest) (node : Option NodeId) : Except Fault Bool :=
  match (node.filter fun n => forest.kind n == .expression).bind
      fun n => (forest.children n)[1]? with
  | none => .ok false
  | some operator => do return comparingOperators.contains (← forest.text operator)

/-- The expression that a statement returns or initializes a variable with. -/
def statedExpression? (forest : Forest) (node : Option NodeId) : Option NodeId := do
  let n ← node.filter fun n => forest.kind n == .statement
  let inner ← (forest.children n).head?
  match forest.kind inner with
  | .returnStatement => forest.firstChild? (some inner) .expression
  | .simpleStatement =>
    forest.firstChild? (forest.firstChild? (some inner) .variableDeclarationStatement) .expression
  | _ => none

/-- Whether a statement returns a conditional expression or initializes a
variable with one. -/
def isTernary (forest : Forest) (vocabulary : Vocabulary) (node : Option NodeId) : Traced Bool :=
  match forest.statedExpression? node with
  | none => return false
  | some expression =>
    forest.hasTerminal vocabulary (some expression) (Vocabulary.inQuotes "?")

end Forest

end SolidityLint
