import SolidityLint.Fault
import SolidityLint.Text.Numeral
import SolidityLint.Vocabulary.Basic

/-!
# Token listings

A listing describes a vocabulary in text, one entry `name=number` a line. A name
that begins with an apostrophe is a literal name, any other name is a symbol.
Literal names may hold equals signs, so the number follows the last one. Blank
lines are passed over, but counted. If two entries of one sort have the same
number, the first one counts.
-/

namespace SolidityLint

/-- An entry of a listing. -/
structure Entry where
  name : String
  id : Nat
deriving DecidableEq, Repr

namespace Entry

/-- Whether the entry gives a literal name. -/
def isLiteral (entry : Entry) : Bool := entry.name.toList.head? == some '\x27'

/-- Reads a line, which has no blanks at its ends and is not empty. -/
def read (line : List Char) (number : Nat) : Except VocabularyFault Entry :=
  match Text.cutAtLast? '=' line with
  | none => .error (.noSeparator (String.ofList line) number)
  | some (name, id) =>
    match Text.readInteger? id with
    | none => .error (.notAnInteger (String.ofList id) number)
    | some value =>
      if name.isEmpty || value < 1 then .error (.invalidEntry (String.ofList line) number)
      else .ok ⟨String.ofList name, value.toNat⟩

/-- The line of an entry. -/
def render (entry : Entry) : String := entry.name ++ "=" ++ toString entry.id

end Entry

namespace Vocabulary

/-- The entries of the lines that are not blank, with the fault of the first line
that has one. -/
def readEntries : List (List Char × Nat) → Except VocabularyFault (List Entry)
  | [] => .ok []
  | (line, number) :: rest =>
    match Text.trim line with
    | [] => readEntries rest
    | c :: cs => do
      let entry ← Entry.read (c :: cs) number
      return entry :: (← readEntries rest)

/-- The name that a list of entries gives to a number: the first one. -/
def firstName? (entries : List Entry) (id : Nat) : Option String :=
  (entries.find? (·.id == id)).map (·.name)

/-- The vocabulary of a list of entries. -/
def ofEntries (entries : List Entry) : Vocabulary :=
  let size := (entries.map (·.id)).foldl max 0 + 1
  let literals := entries.filter (·.isLiteral)
  let symbols := entries.filter (!·.isLiteral)
  ofNames ((List.range size).map (firstName? literals)) ((List.range size).map (firstName? symbols))

/-- The vocabulary that a listing describes. -/
def ofListing (text : String) : Except Fault Vocabulary :=
  match readEntries (Text.numberedLines text.toList) with
  | .ok entries => .ok (ofEntries entries)
  | .error fault => .error (.vocabulary fault)

/-- The entries of a vocabulary: its symbols, then its literal names. -/
def entries (vocabulary : Vocabulary) : List Entry :=
  (vocabulary.symbols.named ++ vocabulary.literals.named).map fun entry => ⟨entry.1, entry.2⟩

end Vocabulary

end SolidityLint
