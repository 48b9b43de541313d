import SolidityLint.Query.Navigation

/-!
# Functions

Names of functions, and what their modifier lists declare. The keywords are
looked for one after the other until one is found. Mutability counts only if
exactly one entry of the list declares it.
-/

namespace SolidityLint.Forest

/-- The name of a function definition, or of the function that a call calls: the
text of its first identifier. -/
def functionName (forest : Forest) (node : Option NodeId) : Checked (Option String) := do
  let kind := forest.kindOf node
  Checked.require (kind = .functionDefinition || kind = .functionCall)
    (.precondition (.functionOrCall kind))
  match forest.firstChild? node .identifier with
  | none => return none
  | some identifier => return some (← forest.readText identifier)

/-- Whether a function definition has the name reserved for callbacks. -/
def isCallback (forest : Forest) (node : Option NodeId) : Checked Bool := do
  Checked.require (forest.isKind node .functionDefinition)
    (.precondition (.function (forest.kindOf node)))
  return (← forest.functionName node) == some FunctionSummary.callbackName

/-- The modifier list of a function. -/
def modifierList? (forest : Forest) (node : Option NodeId) : Option NodeId :=
  forest.firstChild? node .modifierList

/-- The state mutability entries of a modifier list. -/
def mutabilityEntries (forest : Forest) (modifiers : Option NodeId) : List NodeId :=
  forest.childrenOfKind modifiers .stateMutability

variable (forest : Forest) (vocabulary : Vocabulary)

/-- The first visibility whose keyword a modifier list has. -/
def visibility (modifiers : Option NodeId) : Traced Visibility := do
  let declared ← Traced.find? (fun (v : Visibility) =>
    forest.hasTerminal vocabulary modifiers v.literal) Visibility.declarable
  return declared.getD .byDefault

/-- Whether a modifier list has no visibility keyword. -/
def hasNoVisibility (modifiers : Option NodeId) : Traced Bool := do
  return !(← Traced.any (fun (v : Visibility) =>
    forest.hasTerminal vocabulary modifiers v.literal) Visibility.declarable)

/-- Whether a modifier list leaves the function open to calls from outside. -/
def isOpenToCalls (modifiers : Option NodeId) : Traced Bool := do
  if ← forest.hasNoVisibility vocabulary modifiers then return true
  if ← forest.hasTerminal vocabulary modifiers Visibility.publicly.literal then return true
  forest.hasTerminal vocabulary modifiers Visibility.externally.literal

/-- The first mutability whose keyword an entry has. -/
def mutability (entry : Option NodeId) : Traced Mutability := do
  let declared ← Traced.find? (fun (m : Mutability) =>
    forest.hasTerminal vocabulary entry m.literal) Mutability.declarable
  return declared.getD .unspecified

/-- Whether exactly one entry has the keyword `payable`. -/
def isPayable (entries : List (Option NodeId)) : Traced Bool := do
  let found ← Traced.count (fun entry =>
    forest.hasTerminal vocabulary entry Mutability.payable.literal) entries
  return found == 1

/-- Whether an entry has the keyword `view` or `pure`. -/
def saysReadOnly (entry : Option NodeId) : Traced Bool := do
  if ← forest.hasTerminal vocabulary entry Mutability.view.literal then return true
  forest.hasTerminal vocabulary entry Mutability.pure.literal

/-- Whether exactly one entry has the keyword `view` or `pure`. -/
def isReadOnly (entries : List (Option NodeId)) : Traced Bool := do
  let found ← Traced.count (forest.saysReadOnly vocabulary) entries
  return found == 1

/-- The mutability that the entries of a modifier list declare together. It is a
fault if one entry says that the function is read-only, but says first that it
is payable. -/
def declaredMutability (entries : List (Option NodeId)) : Checked Mutability := do
  if ← forest.isPayable vocabulary entries then return .payable
  if ← forest.isReadOnly vocabulary entries then
    Checked.get (← Traced.firstOf? (forest.mutability vocabulary) Mutability.isReadOnly entries)
      .noMutability
  else return .unspecified

/-- The visibility of a function with or without a modifier list. -/
def declaredVisibility (modifiers : Option NodeId) : Traced Visibility :=
  match modifiers with
  | none => return .byDefault
  | some list => forest.visibility vocabulary (some list)

/-- Sums up a function definition. -/
def describe (node : Option NodeId) : Checked FunctionSummary := do
  Checked.require (forest.isKind node .functionDefinition)
    (.precondition (.function (forest.kindOf node)))
  let modifiers := forest.modifierList? node
  let visibility ← forest.declaredVisibility vocabulary modifiers
  let mutability ← forest.declaredMutability vocabulary
    ((forest.mutabilityEntries modifiers).map some)
  let name ← forest.functionName node
  let isCallback ← forest.isCallback node
  let summary : FunctionSummary := { name, visibility, mutability, isCallback }
  Traced.emit (.described summary)
  return summary

end SolidityLint.Forest
