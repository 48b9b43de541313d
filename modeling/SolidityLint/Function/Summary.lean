import SolidityLint.Text.Quoted
import SolidityLint.Vocabulary.Basic

/-!
# What is said of a function

Visibility and state mutability of functions, the keywords that declare them,
and the summary of a function definition.
-/

namespace SolidityLint

/-- From where a function can be called. -/
inductive Visibility where
  | publicly
  | externally
  | internally
  | privately
  /-- No visibility is declared. -/
  | byDefault
deriving DecidableEq, Repr

namespace Visibility

/-- The word for a visibility. -/
def word : Visibility → String
  | .publicly => "public"
  | .externally => "external"
  | .internally => "internal"
  | .privately => "private"
  | .byDefault => "default"

/-- The visibilities that have a keyword, in the order in which they are looked for. -/
def declarable : List Visibility := [.publicly, .externally, .internally, .privately]

/-- The literal name of the keyword. -/
def literal (visibility : Visibility) : String := Vocabulary.inQuotes visibility.word

/-- Whether a function of this visibility can be called from outside the contract. -/
def isOpen (visibility : Visibility) : Bool :=
  visibility = .byDefault || visibility = .publicly || visibility = .externally

end Visibility

/-- What a function may do to the contract's state. -/
inductive Mutability where
  | payable
  | view
  | pure
  /-- None is declared, or the declarations contradict each other. -/
  | unspecified
deriving DecidableEq, Repr

namespace Mutability

/-- The word for a mutability. -/
def word : Mutability → String
  | .payable => "payable"
  | .view => "view"
  | .pure => "pure"
  | .unspecified => "unspecified"

/-- The mutabilities that have a keyword, in the order in which they are looked for. -/
def declarable : List Mutability := [.payable, .view, .pure]

/-- The literal name of the keyword. -/
def literal (mutability : Mutability) : String := Vocabulary.inQuotes mutability.word

/-- Whether the function leaves the state as it is. -/
def isReadOnly (mutability : Mutability) : Bool := mutability = .view || mutability = .pure

end Mutability

/-- What is said of a function definition. -/
structure FunctionSummary where
  /-- The name; fallback functions have none. -/
  name : Option String
  visibility : Visibility
  mutability : Mutability
  /-- Whether the name is the one reserved for callbacks. -/
  isCallback : Bool
deriving DecidableEq, Repr

namespace FunctionSummary

/-- The name reserved for callbacks. -/
def callbackName : String := "__callback"

/-- The summary in one line. -/
def render (summary : FunctionSummary) : String :=
  "FunctionSummary(name=" ++ (summary.name.map Text.quoted).getD "None"
    ++ ", visibility=" ++ summary.visibility.word
    ++ ", mutability=" ++ summary.mutability.word
    ++ ", is_callback=" ++ (if summary.isCallback then "True" else "False") ++ ")"

end FunctionSummary

end SolidityLint
