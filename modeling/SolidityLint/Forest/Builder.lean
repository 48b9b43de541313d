import SolidityLint.Forest.Basic
import SolidityLint.Vocabulary.Lexeme

/-!
# Building trees by hand

A rule node is made from its parts, which are existing nodes and texts. Parts
are attached from left to right; a text becomes a terminal whose type the
vocabulary gives. When a part cannot be attached, the building stops there, and
the links made so far stay: every operation returns the forest as it is then,
with or without a fault.
-/

namespace SolidityLint

/-- Makes a token of a text; the symbol, if one is given, decides its type. The
empty symbol is the same as none. -/
def Vocabulary.token (vocabulary : Vocabulary) (text : String) (symbol : Option String) :
    Except Fault Token := do
  let type ← match symbol.filter (· ≠ "") with
    | some symbol => vocabulary.requireSymbol symbol
    | none => vocabulary.typeOfText text
  return ⟨type, text⟩

/-- What a rule node is made from. -/
inductive Part where
  /-- A text, to become a terminal. -/
  | text (text : String)
  /-- An existing node. An absent one cannot be attached. -/
  | node (node : Option NodeId)
deriving DecidableEq, Repr

namespace Forest

/-- Adds a terminal below a node. -/
def addTerminal (forest : Forest) (parent : NodeId) (token : Token) : Forest × NodeId :=
  let (forest, n) := forest.add (.token token false) (some parent)
  (forest.appendChild parent n, n)

/-- Attaches an existing node below another. -/
def adopt (forest : Forest) (parent child : NodeId) : Forest :=
  (forest.setParent child parent).appendChild parent child

/-- Attaches a part below a node. -/
def attach (forest : Forest) (vocabulary : Vocabulary) (parent : NodeId) :
    Part → Forest × Except Fault Unit
  | .text text =>
    match vocabulary.token text none with
    | .ok token => ((forest.addTerminal parent token).1, .ok ())
    | .error fault => (forest, .error fault)
  | .node (some child) => (forest.adopt parent child, .ok ())
  | .node none => (forest, .error .notOffered)

/-- Attaches parts below a node, up to the first that cannot be. -/
def attachAll (forest : Forest) (vocabulary : Vocabulary) (parent : NodeId) :
    List Part → Forest × Except Fault Unit
  | [] => (forest, .ok ())
  | part :: rest =>
    match forest.attach vocabulary parent part with
    | (forest, .ok ()) => forest.attachAll vocabulary parent rest
    | (forest, .error fault) => (forest, .error fault)

/-- Makes a rule node with a label from parts. -/
def growLabelled (forest : Forest) (vocabulary : Vocabulary) (label : RuleLabel)
    (parts : List Part) : Forest × Except Fault NodeId :=
  let (forest, n) := forest.add (.rule label) none
  match forest.attachAll vocabulary n parts with
  | (forest, .ok ()) => (forest, .ok n)
  | (forest, .error fault) => (forest, .error fault)

/-- Makes a node of a kind, which must be a rule, from parts. -/
def grow (forest : Forest) (vocabulary : Vocabulary) (kind : Kind) (parts : List Part) :
    Forest × Except Fault NodeId :=
  if kind.isRule then forest.growLabelled vocabulary (.ofKind kind) parts
  else (forest, .error (.notARule kind))

/-- Makes a terminal of a text below a node, which must be a rule node. -/
def growTerminal (forest : Forest) (vocabulary : Vocabulary) (parent : Option NodeId)
    (text : String) (symbol : Option String) : Forest × Except Fault NodeId :=
  match parent.filter forest.isRule with
  | none => (forest, .error .notOffered)
  | some parent =>
    match vocabulary.token text symbol with
    | .ok token =>
      let (forest, n) := forest.addTerminal parent token
      (forest, .ok n)
    | .error fault => (forest, .error fault)

/-- Appends a child, or a gap for an absent one, to a node, which must be a rule
node, and answers that node. -/
def growChild (forest : Forest) (parent child : Option NodeId) : Forest × Except Fault NodeId :=
  match parent.filter forest.isRule with
  | none => (forest, .error .notOffered)
  | some parent =>
    match child with
    | some child => (forest.appendChild parent child, .ok parent)
    | none =>
      let (forest, gap) := forest.add .gap none
      (forest.appendChild parent gap, .ok parent)

end Forest

end SolidityLint
