import SolidityLint.Trace.Traced

/-!
# Comparing issues

The issues found in a test source are compared with the expected ones as
multisets: an issue that is expected twice has to be found twice. What is
missing and what was not expected is listed in order.
-/

namespace SolidityLint

/-- A row of a report: an issue, or a row that has not two fields. -/
inductive Row where
  | issue (issue : Issue)
  | malformed (fields : Nat)
deriving DecidableEq, Repr

/-- The issues of rows; the first row that is malformed is a fault. -/
def Row.readAll : List Row → Except Fault (List Issue)
  | [] => .ok []
  | .issue found :: rest => (readAll rest).map (found :: ·)
  | .malformed fields :: _ => .error (.rowSize fields)

namespace Issue

/-- The issues that are left when each member of `removed` takes away one of its kind. -/
def difference (issues removed : List Issue) : List Issue := removed.foldl List.erase issues

/-- The issues in order. -/
def sort (issues : List Issue) : List Issue := issues.mergeSort le

/-- Compares the issues found with those expected. -/
def verify (expected actual : List Issue) : Checked Unit := do
  let missing := sort (difference expected actual)
  let unexpected := sort (difference actual expected)
  if missing.isEmpty && unexpected.isEmpty then Traced.emit (.verified expected.length)
  else throw (.mismatch missing unexpected)

/-- Compares rows; all rows of `expected` are read first. -/
def verifyRows (expected actual : List Row) : Checked Unit := do
  let expected ← Checked.ofExcept (Row.readAll expected)
  let actual ← Checked.ofExcept (Row.readAll actual)
  verify expected actual

end Issue

end SolidityLint
