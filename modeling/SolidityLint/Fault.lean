import SolidityLint.Kind
import SolidityLint.Text.Quoted

/-!
# What can go wrong

The causes for which an operation gives no value, and the text that reports
each of them. One cause is that the issues found in a source differ from those
expected. The number of a line is shown in full, however many digits it has: the limit
that holds where a number is read is left out.
-/

namespace SolidityLint

open Text (quoted)

/-! ## Issues

An issue is a message on a line of a source text. Issues are ordered by line and
then by message, messages by code point. -/

/-- A message on a line. -/
structure Issue where
  line : Int
  message : String
deriving DecidableEq, Repr

/-- Whether an issue comes before another or is equal to it. -/
def Issue.le (a b : Issue) : Bool :=
  a.line < b.line || (a.line == b.line && !decide (b.message < a.message))

/-! ## Faults -/

/-- Why a vocabulary cannot be read, or does not serve a token. -/
inductive VocabularyFault where
  /-- A line of a listing has no equals sign. -/
  | noSeparator (entry : String) (line : Nat)
  /-- What follows the last equals sign of a line is no integer. -/
  | notAnInteger (id : String) (line : Nat)
  /-- The name in a line is empty or its number is below one. -/
  | invalidEntry (entry : String) (line : Nat)
  /-- A text is neither a literal nor of a known lexical form. -/
  | noTokenType (text : String)
  /-- A symbol that the vocabulary does not have. -/
  | unknownSymbol (symbol : String)
deriving DecidableEq, Repr

namespace VocabularyFault

/-- What is wrong, without the place. -/
def reason : VocabularyFault → String
  | .noSeparator entry _ => "expected name=id, got " ++ quoted entry
  | .notAnInteger id _ => "token type " ++ quoted id ++ " is not an integer"
  | .invalidEntry entry _ => "invalid token entry " ++ quoted entry
  | .noTokenType text => "no token type for " ++ quoted text
  | .unknownSymbol symbol => "symbol " ++ symbol ++ " is not in the vocabulary"

/-- The line of the listing that is wrong. -/
def line? : VocabularyFault → Option Nat
  | .noSeparator _ line | .notAnInteger _ line | .invalidEntry _ line => some line
  | .noTokenType _ | .unknownSymbol _ => none

/-- What is wrong, and in which line. -/
def message (fault : VocabularyFault) : String :=
  match fault.line? with
  | some line => fault.reason ++ " (line " ++ toString line ++ ")"
  | none => fault.reason

end VocabularyFault

/-- Conditions that an operation asks of its argument. -/
inductive Precondition where
  /-- An expression whose text stands in parentheses. -/
  | parenthesized (text : String)
  /-- A parenthesis, one inner node, a parenthesis. -/
  | wrapped (text : String)
  /-- An if statement. -/
  | ifStatement (text : String)
  /-- A function definition or a function call. -/
  | functionOrCall (kind : Kind)
  /-- A function definition. -/
  | function (kind : Kind)
  /-- An expectation comment. -/
  | expectation (comment : String)
deriving DecidableEq, Repr

/-- How the condition is reported when it does not hold of the argument shown. -/
def Precondition.message : Precondition → String
  | .parenthesized text => "'" ++ text ++ "' is not a parenthesized expression"
  | .wrapped text => "'" ++ text ++ "' does not have the shape ( expression )"
  | .ifStatement text => "'" ++ text ++ "' is not an if statement"
  | .functionOrCall kind => "expected a function definition or call, got " ++ kind.name
  | .function kind => "expected a function definition, got " ++ kind.name
  | .expectation comment =>
    quoted comment ++ " is not a '// Noncompliant \x7b\x7b...\x7d\x7d' comment"

/-- The causes of failure. -/
inductive Fault where
  /-- The vocabulary cannot be read or does not serve a token. -/
  | vocabulary (fault : VocabularyFault)
  /-- The argument does not meet a condition. -/
  | precondition (condition : Precondition)
  /-- No contract definition stands above the node with this text. -/
  | missingContract (text : String)
  /-- The issues found differ from the expected ones. -/
  | mismatch (missing unexpected : List Issue)
  /-- A node of this kind cannot be made, because it is no rule of the grammar. -/
  | notARule (kind : Kind)
  /-- A row of this many fields stands for no issue. -/
  | rowSize (fields : Nat)
  /-- The node is absent or does not offer the operation. -/
  | notOffered
  /-- A name that nothing was given. -/
  | unknownName
  /-- A walk down from the node comes back to where it was. -/
  | endless
  /-- An indentation that is no 64-bit number with a sign. -/
  | indentOutOfRange
  /-- One entry declares view or pure, and none of them first. -/
  | noMutability
  /-- The listing's file does not exist. -/
  | fileNotFound
  /-- The listing's file is not UTF-8. -/
  | notUtf8
deriving DecidableEq, Repr

namespace Fault

/-- How a list of issues is shown. -/
def showIssues (issues : List Issue) : String :=
  ", ".intercalate (issues.map fun issue =>
    quoted issue.message ++ " at line " ++ toString issue.line)

/-- The message of a mismatch: the parts that are not empty. -/
def mismatchMessage (missing unexpected : List Issue) : String :=
  "; ".intercalate
    ((if missing.isEmpty then [] else ["missing: " ++ showIssues missing])
      ++ (if unexpected.isEmpty then [] else ["unexpected: " ++ showIssues unexpected]))

/-- The text that reports a fault; some faults are reported without one. -/
def message? : Fault → Option String
  | .vocabulary fault => some fault.message
  | .precondition condition => some condition.message
  | .missingContract text => some ("no contract definition encloses node '" ++ text ++ "'")
  | .mismatch missing unexpected => some (mismatchMessage missing unexpected)
  | .notARule kind => some ("NodeKind." ++ kind.label ++ " is not a rule of the grammar")
  | .rowSize fields =>
    if fields < 2 then
      some ("not enough values to unpack (expected 2, got " ++ toString fields ++ ")")
    else some "too many values to unpack (expected 2)"
  | .notOffered | .unknownName | .endless | .indentOutOfRange | .noMutability
  | .fileNotFound | .notUtf8 => none

end Fault

end SolidityLint
