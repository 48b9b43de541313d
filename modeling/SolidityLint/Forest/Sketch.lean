import SolidityLint.Forest.Builder

/-!
# Sketches of trees

A sketch describes a tree to be built. Planting it makes the children that are
not texts first, from left to right, then the node, and then attaches the
children in order.
-/

namespace SolidityLint

/-- How the type of a sketched token is chosen. -/
inductive TypeChoice where
  /-- By the text. -/
  | byText
  /-- By a symbol. -/
  | bySymbol (symbol : String)
  /-- As given, whether the vocabulary has it or not. -/
  | exactly (type : Int)
deriving DecidableEq, Repr

/-- The description of a tree. -/
inductive Sketch where
  /-- A text, to become a terminal of its parent. -/
  | text (text : String)
  /-- A node of a kind. -/
  | rule (kind : Kind) (children : List Sketch)
  /-- A rule node with a label of its own. -/
  | labelled (label : RuleLabel) (children : List Sketch)
  /-- A token that stands by itself until it is attached. -/
  | token (text : String) (choice : TypeChoice) (erroneous : Bool)
  /-- An existing node, if it was found. -/
  | existing (found : Except Fault (Option NodeId))

namespace Sketch

/-- An identifier. -/
def identifier (name : String) : Sketch := .rule .identifier [.text name]

/-- A block: statements in braces. -/
def block (statements : List Sketch) : Sketch :=
  .rule .block (.text "\x7b" :: statements ++ [.text "\x7d"])

end Sketch

/-- The token of a sketch. -/
def Vocabulary.chosenToken (vocabulary : Vocabulary) (text : String) :
    TypeChoice → Except Fault Token
  | .byText => vocabulary.token text none
  | .bySymbol symbol => vocabulary.token text (some symbol)
  | .exactly type => .ok ⟨type, text⟩

namespace Forest

/-- The part for the outcome of making a node. -/
def asPart : Forest × Except Fault NodeId → Forest × Except Fault Part
  | (forest, .ok n) => (forest, .ok (.node (some n)))
  | (forest, .error fault) => (forest, .error fault)

mutual

/-- Makes what a sketch describes; a text stays a text. -/
def plant (vocabulary : Vocabulary) (forest : Forest) : Sketch → Forest × Except Fault Part
  | .text text => (forest, .ok (.text text))
  | .rule kind children =>
    match plantAll vocabulary forest children with
    | (forest, .ok parts) => asPart (forest.grow vocabulary kind parts)
    | (forest, .error fault) => (forest, .error fault)
  | .labelled label children =>
    match plantAll vocabulary forest children with
    | (forest, .ok parts) => asPart (forest.growLabelled vocabulary label parts)
    | (forest, .error fault) => (forest, .error fault)
  | .token text choice erroneous =>
    match vocabulary.chosenToken text choice with
    | .ok token =>
      let (forest, n) := forest.add (.token token erroneous) none
      (forest, .ok (.node (some n)))
    | .error fault => (forest, .error fault)
  | .existing found => (forest, found.map .node)

/-- Makes what sketches describe, from left to right. -/
def plantAll (vocabulary : Vocabulary) (forest : Forest) :
    List Sketch → Forest × Except Fault (List Part)
  | [] => (forest, .ok [])
  | sketch :: rest =>
    match plant vocabulary forest sketch with
    | (forest, .ok part) =>
      match plantAll vocabulary forest rest with
      | (forest, .ok parts) => (forest, .ok (part :: parts))
      | (forest, .error fault) => (forest, .error fault)
    | (forest, .error fault) => (forest, .error fault)

end

end Forest

end SolidityLint
