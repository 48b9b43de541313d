import SolidityLint.Document
import SolidityLint.Query.ElseClause
import SolidityLint.Query.Expression
import SolidityLint.Query.Function
import SolidityLint.Query.Grammar

/-!
# Questions

All that can be asked of a node, as a type, with the answers. The node may be
absent. Some questions make no sense without a node, and then have no answer;
the others answer as for a node that matches nothing.
-/

namespace SolidityLint

/-- What can be asked of a node. -/
inductive Question where
  | isParenthesized
  | isComparison
  | isCallback
  | isElseIf
  | isTernary
  | hasNoVisibility
  | isOpenToCalls
  | isKind (kind : Kind)
  | functionName
  | elseClause
  | mutability
  | visibility
  | kind
  | text
  | childCount
  | ruleIndex
  | ruleName
  | tokenType
  | document
  | dump (indent : Option Int)
  | unwrapParentheses
  | enclosingContract
  | requiredContract
  | modifierList
  | elseBranch
  | plainElse
  | openBrace
  | parent
  | firstChild (kind : Kind)
  | terminal (literal : String)
  | childrenOfKind (kind : Kind)
  | mutabilityEntries
  | describe

/-- What is answered. -/
inductive Answer where
  | truth (value : Bool)
  | number (value : Int)
  | text (value : Option String)
  | json (value : Json)
  | node (value : Option NodeId)
  | nodes (value : List (Option NodeId))
  | summary (value : FunctionSummary)

namespace Forest

/-- The node that a question needs. -/
def present (node : Option NodeId) : Checked NodeId := Checked.get node .notOffered

/-- The document of the node that a question needs. -/
def readDocument (forest : Forest) (vocabulary : Vocabulary) (node : Option NodeId) :
    Checked Document := do
  Checked.ofExcept (forest.document vocabulary (← present node))

/-- Answers a question about a node. -/
def ask (forest : Forest) (vocabulary : Vocabulary) (node : Option NodeId) :
    Question → Checked Answer
  | .isParenthesized => return .truth (← Checked.ofExcept (forest.isParenthesized node))
  | .isComparison => return .truth (← Checked.ofExcept (forest.isComparison node))
  | .isCallback => return .truth (← forest.isCallback node)
  | .isElseIf => return .truth (← forest.isElseIf vocabulary (← present node))
  | .isTernary => return .truth (← forest.isTernary vocabulary node)
  | .hasNoVisibility => return .truth (← forest.hasNoVisibility vocabulary node)
  | .isOpenToCalls => return .truth (← forest.isOpenToCalls vocabulary node)
  | .isKind kind => return .truth (forest.isKind node kind)
  | .functionName => return .text (← forest.functionName node)
  | .elseClause => return .text (some (← forest.elseClause vocabulary (← present node)).word)
  | .mutability => return .text (some (← forest.mutability vocabulary node).word)
  | .visibility => return .text (some (← forest.visibility vocabulary node).word)
  | .kind => return .text (some (forest.kindOf node).name)
  | .text => return .text (some (← forest.readText (← present node)))
  | .childCount => return .number (forest.children (← present node)).length
  | .ruleIndex => return .number (← Checked.ofExcept (forest.ruleIndex node))
  | .ruleName => return .text (← Checked.ofExcept (forest.ruleName node))
  | .tokenType => return .number (← Checked.ofExcept (forest.tokenType node))
  | .document => return .json (← forest.readDocument vocabulary node).toJson
  | .dump indent => do
    let document ← forest.readDocument vocabulary node
    return .text (some (← Checked.ofExcept (document.dump indent)))
  | .unwrapParentheses => return .node (some (← forest.unwrapParentheses (← present node)))
  | .enclosingContract => return .node (forest.enclosingContract? (← present node))
  | .requiredContract => return .node (some (← forest.enclosingContract (← present node)))
  | .modifierList => return .node (forest.modifierList? node)
  | .elseBranch => return .node (← forest.elseBranch vocabulary node)
  | .plainElse => return .node (← forest.plainElse vocabulary (← present node))
  | .openBrace => return .node (← forest.openBrace vocabulary node)
  | .parent => return .node (forest.parent? (← present node))
  | .firstChild kind =>
    return .node ((forest.firstChild? node kind).bind forest.occupant?)
  | .terminal literal => return .node (← forest.findTerminal vocabulary node literal)
  | .childrenOfKind kind =>
    return .nodes ((forest.childrenOfKind node kind).map forest.occupant?)
  | .mutabilityEntries =>
    return .nodes ((forest.mutabilityEntries node).map forest.occupant?)
  | .describe => return .summary (← forest.describe vocabulary node)

end Forest

end SolidityLint
