import SolidityLint.Kind

/-!
# Labels of rule nodes

A rule node is labelled with the name that its parser gives to nodes of its
rule, such as `IfStatementContext`. Labels made here declare the kind of their
nodes. Labels from elsewhere may declare none, and are then classified by name.
-/

namespace SolidityLint

/-- The label of a rule node. -/
structure RuleLabel where
  name : String
  /-- The kind that the label declares. -/
  declared : Option Kind
  /-- Whether the label comes from this library's table of rules, or extends one
  that does. Only such labels know about their rule. -/
  native : Bool
deriving DecidableEq, Repr

namespace RuleLabel

/-- The ending of label names. -/
def ending : String := "Context"

/-- The label of the nodes of a kind. -/
def ofKind (kind : Kind) : RuleLabel := ⟨kind.name ++ ending, some kind, true⟩

/-- The label's name without its ending. -/
def stem (label : RuleLabel) : String := Text.withoutSuffix label.name ending

/-- The kind of nodes with the label: the declared one, else the one of the name. -/
def kind (label : RuleLabel) : Kind :=
  label.declared.getD ((Kind.ofName? label.stem).getD .other)

/-- The name shown for the rule of the label. -/
def ruleName (label : RuleLabel) : String :=
  label.kind.ruleName?.getD (Text.camelCase label.stem)

end RuleLabel

end SolidityLint
