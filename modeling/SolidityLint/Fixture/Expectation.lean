import SolidityLint.Text.Basic
import SolidityLint.Trace.Traced

/-!
# Expectation comments

A line of a test source that should raise an issue ends with a comment that
holds the message of the issue in double braces. The first place on the line
where such a comment begins counts, and blanks at the end of the line do not. A
comment that begins like an expectation and does not end like one is reported
and passed over.
-/

namespace SolidityLint

namespace Expectation

/-- How an expectation comment begins. -/
def opening : List Char := "// Noncompliant \x7b\x7b".toList

/-- How an expectation comment ends. -/
def closing : List Char := "\x7d\x7d".toList

/-- Whether a text is an expectation comment. -/
def isComment (comment : List Char) : Bool :=
  opening.isPrefixOf comment && closing.isSuffixOf comment

/-- What stands between the braces of an expectation comment, without blanks at
its ends. -/
def body (comment : List Char) : List Char :=
  Text.trim ((comment.drop opening.length).dropLast.dropLast)

/-- The message of a text that must be an expectation comment. -/
def message (comment : String) : Except Fault String :=
  if isComment comment.toList then .ok (String.ofList (body comment.toList))
  else .error (.precondition (.expectation comment))

/-- The issue that a line asks for. -/
def ofLine (line : List Char) (number : Nat) : Traced (Option Issue) :=
  match Text.fromFirst? opening line with
  | none => return none
  | some rest =>
    let comment := Text.trimEnd rest
    if isComment comment then return some ⟨number, String.ofList (body comment)⟩
    else do
      Traced.emit (.malformedExpectation number (String.ofList comment))
      return none

/-- The issues that numbered lines ask for, in order. -/
def ofLines : List (List Char × Nat) → Traced (List Issue)
  | [] => return []
  | (line, number) :: rest => do
    let issue ← ofLine line number
    let issues ← ofLines rest
    return issue.toList ++ issues

/-- The issues that a source text asks for, in order. -/
def collect (source : String) : Traced (List Issue) :=
  ofLines (Text.numberedLines source.toList)

end Expectation

end SolidityLint
