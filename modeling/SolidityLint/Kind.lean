import SolidityLint.Text.CamelCase

/-!
# Kinds of nodes

The checks tell the nodes of a parse tree apart by their kind: one kind for each
rule of the Solidity grammar that they navigate, and one each for terminals,
error nodes and everything else. Kinds have a name, which is the rule's name in
`PascalCase`, and a label in capitals.
-/

namespace SolidityLint

/-- The kinds of nodes. -/
inductive Kind where
  | sourceUnit
  | pragmaDirective
  | contractDefinition
  | contractPart
  | stateVariableDeclaration
  | functionDefinition
  | modifierList
  | modifierInvocation
  | stateMutability
  | parameterList
  | parameter
  | returnParameters
  | block
  | statement
  | ifStatement
  | whileStatement
  | forStatement
  | returnStatement
  | simpleStatement
  | expressionStatement
  | variableDeclarationStatement
  | variableDeclaration
  | typeName
  | elementaryTypeName
  | expression
  | primaryExpression
  | functionCall
  | functionCallArguments
  | identifier
  | terminal
  | error
  | other
deriving DecidableEq, Repr

namespace Kind

/-- All kinds, in the order of the grammar. -/
def all : List Kind :=
  [.sourceUnit, .pragmaDirective, .contractDefinition, .contractPart,
   .stateVariableDeclaration, .functionDefinition, .modifierList, .modifierInvocation,
   .stateMutability, .parameterList, .parameter, .returnParameters, .block, .statement,
   .ifStatement, .whileStatement, .forStatement, .returnStatement, .simpleStatement,
   .expressionStatement, .variableDeclarationStatement, .variableDeclaration, .typeName,
   .elementaryTypeName, .expression, .primaryExpression, .functionCall, .functionCallArguments,
   .identifier, .terminal, .error, .other]

/-- The name of a kind. -/
def name : Kind → String
  | .sourceUnit => "SourceUnit"
  | .pragmaDirective => "PragmaDirective"
  | .contractDefinition => "ContractDefinition"
  | .contractPart => "ContractPart"
  | .stateVariableDeclaration => "StateVariableDeclaration"
  | .functionDefinition => "FunctionDefinition"
  | .modifierList => "ModifierList"
  | .modifierInvocation => "ModifierInvocation"
  | .stateMutability => "StateMutability"
  | .parameterList => "ParameterList"
  | .parameter => "Parameter"
  | .returnParameters => "ReturnParameters"
  | .block => "Block"
  | .statement => "Statement"
  | .ifStatement => "IfStatement"
  | .whileStatement => "WhileStatement"
  | .forStatement => "ForStatement"
  | .returnStatement => "ReturnStatement"
  | .simpleStatement => "SimpleStatement"
  | .expressionStatement => "ExpressionStatement"
  | .variableDeclarationStatement => "VariableDeclarationStatement"
  | .variableDeclaration => "VariableDeclaration"
  | .typeName => "TypeName"
  | .elementaryTypeName => "ElementaryTypeName"
  | .expression => "Expression"
  | .primaryExpression => "PrimaryExpression"
  | .functionCall => "FunctionCall"
  | .functionCallArguments => "FunctionCallArguments"
  | .identifier => "Identifier"
  | .terminal => "<terminal>"
  | .error => "<error>"
  | .other => "<other>"

/-- The label of a kind, in capitals. -/
def label : Kind → String
  | .sourceUnit => "SOURCE_UNIT"
  | .pragmaDirective => "PRAGMA_DIRECTIVE"
  | .contractDefinition => "CONTRACT_DEFINITION"
  | .contractPart => "CONTRACT_PART"
  | .stateVariableDeclaration => "STATE_VARIABLE_DECLARATION"
  | .functionDefinition => "FUNCTION_DEFINITION"
  | .modifierList => "MODIFIER_LIST"
  | .modifierInvocation => "MODIFIER_INVOCATION"
  | .stateMutability => "STATE_MUTABILITY"
  | .parameterList => "PARAMETER_LIST"
  | .parameter => "PARAMETER"
  | .returnParameters => "RETURN_PARAMETERS"
  | .block => "BLOCK"
  | .statement => "STATEMENT"
  | .ifStatement => "IF_STATEMENT"
  | .whileStatement => "WHILE_STATEMENT"
  | .forStatement => "FOR_STATEMENT"
  | .returnStatement => "RETURN_STATEMENT"
  | .simpleStatement => "SIMPLE_STATEMENT"
  | .expressionStatement => "EXPRESSION_STATEMENT"
  | .variableDeclarationStatement => "VARIABLE_DECLARATION_STATEMENT"
  | .variableDeclaration => "VARIABLE_DECLARATION"
  | .typeName => "TYPE_NAME"
  | .elementaryTypeName => "ELEMENTARY_TYPE_NAME"
  | .expression => "EXPRESSION"
  | .primaryExpression => "PRIMARY_EXPRESSION"
  | .functionCall => "FUNCTION_CALL"
  | .functionCallArguments => "FUNCTION_CALL_ARGUMENTS"
  | .identifier => "IDENTIFIER"
  | .terminal => "TERMINAL"
  | .error => "ERROR"
  | .other => "OTHER"

/-- The kind of a name. -/
def ofName? (name : String) : Option Kind := all.find? (·.name == name)

/-- Whether the kind is a rule of the grammar. -/
def isRule : Kind → Bool
  | .terminal | .error | .other => false
  | _ => true

/-- The name of the kind's grammar rule, if it is one. -/
def ruleName? (kind : Kind) : Option String :=
  if kind.isRule then some (Text.camelCase kind.name) else none

/-- The kinds that are rules of the grammar, in order. -/
def rules : List Kind := all.filter isRule

/-- The place of the kind among the rules, if it is one. -/
def ruleIndex? (kind : Kind) : Option Nat := rules.findIdx? (· == kind)

end Kind

end SolidityLint
