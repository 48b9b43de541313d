import SolidityLint.Fault
import SolidityLint.Function.Summary

/-!
# Events

What the operations report while they work, for whoever listens. An event has a
level, belongs to a topic, and has a message.
-/

namespace SolidityLint

/-- How much an event matters. -/
inductive Level where
  | debug
  | info
  | warning
deriving DecidableEq, Repr

/-- The part of the library that reports an event. -/
inductive Topic where
  | vocabulary
  | tree
  | function
  | fixture
deriving DecidableEq, Repr

/-- What is reported. -/
inductive Event where
  /-- A literal name was looked up that the vocabulary does not have. -/
  | unknownLiteral (literal : String)
  /-- A vocabulary was read from a place. -/
  | loaded (maxTokenType : Int) (place : String)
  /-- A node does not meet a condition. -/
  | failedPrecondition (condition : Precondition)
  /-- No contract stands above the node with this text. -/
  | noContract (text : String)
  /-- A function was summed up. -/
  | described (summary : FunctionSummary)
  /-- A comment looks like an expectation and is none. -/
  | malformedExpectation (line : Nat) (comment : String)
  /-- The issues found are the expected ones. -/
  | verified (issues : Nat)
deriving DecidableEq, Repr

namespace Event

/-- The level of an event. -/
def level : Event → Level
  | .loaded .. => .info
  | .malformedExpectation .. => .warning
  | _ => .debug

/-- The topic of an event. -/
def topic : Event → Topic
  | .unknownLiteral _ | .loaded .. => .vocabulary
  | .failedPrecondition _ | .noContract _ => .tree
  | .described _ => .function
  | .malformedExpectation .. | .verified _ => .fixture

/-- The message of an event. -/
def message : Event → String
  | .unknownLiteral literal => "Literal " ++ literal ++ " is not in the vocabulary"
  | .loaded maxTokenType place =>
    "Loaded vocabulary of " ++ toString maxTokenType ++ " token types from " ++ place
  | .failedPrecondition condition => "Precondition failed: " ++ condition.message
  | .noContract text => "No contract definition above '" ++ text ++ "'"
  | .described summary => "Described function " ++ summary.render
  | .malformedExpectation line comment =>
    "Ignoring malformed expectation comment at line " ++ toString line ++ ": " ++ comment
  | .verified issues => "Fixture verified: " ++ toString issues ++ " issues"

end Event

end SolidityLint
