import SolidityLint.Forest.Basic
import SolidityLint.Trace.Traced

/-!
# Navigation

The steps that the checks are made of: the kind of a node, children of a kind,
and terminals of a literal. They accept an absent node, which has no kind of its
own, no children and no terminals.

The contract definition that a node belongs to is the nearest one above it by
the parent links. The node itself does not count.
-/

namespace SolidityLint

/-- The token type of a literal name; an unknown one is reported. -/
def Vocabulary.resolve (vocabulary : Vocabulary) (literal : String) : Traced Nat := do
  let type := vocabulary.tokenType literal
  if type = invalidType then Traced.emit (.unknownLiteral literal)
  return type

theorem Vocabulary.value_resolve (vocabulary : Vocabulary) (literal : String) :
    (vocabulary.resolve literal).value = vocabulary.tokenType literal := by
  rw [resolve]
  split <;> rfl

namespace Forest

/-- The kind of a node that may be absent. -/
def kindOf (forest : Forest) (node : Option NodeId) : Kind := (node.map forest.kind).getD .other

/-- Whether there is a node and it has the kind. -/
def isKind (forest : Forest) (node : Option NodeId) (kind : Kind) : Bool :=
  node.any fun n => forest.kind n == kind

/-- The children of a rule node; other nodes, and absent ones, have none. -/
def ruleChildren (forest : Forest) (node : Option NodeId) : List NodeId :=
  match node.filter forest.isRule with
  | some n => forest.children n
  | none => []

/-- The children of a kind, in order. -/
def childrenOfKind (forest : Forest) (node : Option NodeId) (kind : Kind) : List NodeId :=
  (forest.ruleChildren node).filter fun child => forest.kind child == kind

/-- The first child of a kind. -/
def firstChild? (forest : Forest) (node : Option NodeId) (kind : Kind) : Option NodeId :=
  (forest.ruleChildren node).find? fun child => forest.kind child == kind

/-- The first child that is a terminal of a type. -/
def terminalOfType? (forest : Forest) (n : NodeId) (type : Int) : Option NodeId :=
  (forest.children n).find? fun child => (forest.token? child).any (·.type == type)

/-- The first child that is a terminal of the type of a literal. The literal is
looked up only for rule nodes, and an unknown one is found nowhere. -/
def findTerminal (forest : Forest) (vocabulary : Vocabulary) (node : Option NodeId)
    (literal : String) : Traced (Option NodeId) :=
  match node.filter forest.isRule with
  | none => return none
  | some n => do
    let type ← vocabulary.resolve literal
    return if type = Vocabulary.invalidType then none else forest.terminalOfType? n type

theorem value_findTerminal {forest : Forest} {n : NodeId} (h : forest.isRule n = true)
    (vocabulary : Vocabulary) (literal : String) :
    (forest.findTerminal vocabulary (some n) literal).value =
      if vocabulary.tokenType literal = Vocabulary.invalidType then none
      else forest.terminalOfType? n (vocabulary.tokenType literal) := by
  simp only [findTerminal, Option.filter, h, if_true, Traced.value_bind, Traced.value_pure,
    Vocabulary.value_resolve]

/-- Whether a node has a terminal of a literal. -/
def hasTerminal (forest : Forest) (vocabulary : Vocabulary) (node : Option NodeId)
    (literal : String) : Traced Bool := do
  return (← forest.findTerminal vocabulary node literal).isSome

/-- The terminal of the opening brace. -/
def openBrace (forest : Forest) (vocabulary : Vocabulary) (node : Option NodeId) :
    Traced (Option NodeId) :=
  forest.findTerminal vocabulary node (Vocabulary.inQuotes "\x7b")

/-- The text of a node, without events. -/
def readText (forest : Forest) (n : NodeId) : Checked String := Checked.ofExcept (forest.text n)

/-- Reports that a node does not meet a condition, and stops. -/
def reject {α : Type} (condition : Precondition) : Checked α := do
  Traced.emit (.failedPrecondition condition)
  throw (.precondition condition)

/-- Stops, after a report, unless the condition holds. -/
def demand (holds : Bool) (condition : Precondition) : Checked Unit :=
  if holds then return () else reject condition

/-! ## Enclosing contracts -/

/-- The nearest contract definition above a node. -/
def enclosingContract? (forest : Forest) (n : NodeId) : Option NodeId :=
  (forest.ancestors n).find? fun above => forest.kind above == .contractDefinition

/-- The nearest contract definition above a node, which must exist. -/
def enclosingContract (forest : Forest) (n : NodeId) : Checked NodeId := do
  match forest.enclosingContract? n with
  | some contract => return contract
  | none =>
    let text ← forest.readText n
    Traced.emit (.noContract text)
    throw (.missingContract text)

end Forest

end SolidityLint
