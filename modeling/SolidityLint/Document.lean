import SolidityLint.Forest.Basic
import SolidityLint.Json.Basic
import SolidityLint.Vocabulary.Basic

/-!
# Documents

A document is the plain view of a tree: names of rules and of tokens, and the
texts of tokens. It is written as JSON, if the wish for its layout can be met.
The text may be of any length: how long a text a machine can hold is left out.
-/

namespace SolidityLint

/-- The plain view of a tree. -/
inductive Document where
  | rule (type : String) (children : List Document)
  | token (type : String) (text : String) (erroneous : Bool)

namespace Forest

/-- The document of a node, if no walk down from it is longer than the given depth. -/
def documentWithin (forest : Forest) (vocabulary : Vocabulary) :
    Nat → NodeId → Except Fault Document
  | 0, _ => .error .endless
  | depth + 1, n =>
    match forest.label? n with
    | some (.token token erroneous) =>
      .ok (.token (vocabulary.tokenName token.type) token.text erroneous)
    | some (.rule label) => do
      let children ← (forest.children n).mapM (forest.documentWithin vocabulary depth)
      return .rule label.ruleName children
    | _ => .error .notOffered

/-- The document of a node. A gap has none, and neither has what holds one. -/
def document (forest : Forest) (vocabulary : Vocabulary) (n : NodeId) : Except Fault Document :=
  forest.documentWithin vocabulary forest.size n

end Forest

namespace Document

mutual

/-- A document as a JSON value. -/
def toJson : Document → Json
  | .rule type children =>
    .object [("type", .string type), ("children", .array (toJsonAll children))]
  | .token type text erroneous =>
    .object ([("type", .string type), ("text", .string text)]
      ++ if erroneous then [("error", .bool true)] else [])

/-- Documents as JSON values. -/
def toJsonAll : List Document → List Json
  | [] => []
  | document :: rest => toJson document :: toJsonAll rest

end

/-- The JSON text of a document. -/
def render (layout : Json.Layout) (document : Document) : String := document.toJson.render layout

/-- The layout for a wish for an indentation: none is one line, and a negative
one is zero blanks. The wish is a 64-bit number with a sign. -/
def layout : Option Int → Except Fault Json.Layout
  | none => .ok .oneLine
  | some step =>
    if step < -0x8000000000000000 ∨ 0x8000000000000000 ≤ step then .error .indentOutOfRange
    else .ok (.lines step.toNat)

/-- The JSON text of a document, laid out as wished. -/
def dump (indent : Option Int) (document : Document) : Except Fault String := do
  return document.render (← layout indent)

end Document

end SolidityLint
