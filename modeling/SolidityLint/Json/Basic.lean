import SolidityLint.Text.Quoted

/-!
# JSON values and how they are written

The members of an object keep their order, and a number is kept as it is written.

A value is written on one line, or with each member and item on a line of its
own, indented by its depth. Strings are written in ASCII: characters outside the
printable ASCII range are escaped, those above the basic plane as a pair of
surrogates.
-/

namespace SolidityLint

/-- A JSON value. -/
inductive Json where
  | null
  | bool (value : Bool)
  | number (digits : String)
  | string (text : String)
  | array (items : List Json)
  | object (members : List (String × Json))

namespace Json

open Text (hexDigits)

/-- The escape of a code unit. -/
def unitEscape (unit : Nat) : List Char := '\\' :: 'u' :: hexDigits 4 unit

/-- The code units of a character: itself, or a pair of surrogates. -/
def codeUnits (c : Char) : List Nat :=
  if c.toNat < 0x10000 then [c.toNat]
  else
    let offset := c.toNat - 0x10000
    [0xD800 + offset / 0x400, 0xDC00 + offset % 0x400]

/-- How a character is written in a string. -/
def writeChar (c : Char) : List Char :=
  if c = '"' ∨ c = '\\' then ['\\', c]
  else if c = '\n' then ['\\', 'n']
  else if c = '\r' then ['\\', 'r']
  else if c = '\t' then ['\\', 't']
  else if c = '\x0c' then ['\\', 'f']
  else if c = '\x08' then ['\\', 'b']
  else if 0x20 ≤ c.toNat ∧ c.toNat ≤ 0x7E then [c]
  else (codeUnits c).flatMap unitEscape

/-- How a string is written. -/
def writeString (text : String) : List Char := '"' :: text.toList.flatMap writeChar ++ ['"']

/-- How a value is laid out: on one line, or on lines indented by a number of
blanks for each level. -/
inductive Layout where
  | oneLine
  | lines (step : Nat)
deriving DecidableEq, Repr

namespace Layout

/-- What begins a line at a depth. -/
def lineStart : Layout → Nat → List Char
  | .oneLine, _ => []
  | .lines step, depth => '\n' :: List.replicate (step * depth) ' '

/-- What stands between two members at a depth. -/
def separator : Layout → Nat → List Char
  | .oneLine, _ => [',', ' ']
  | .lines step, depth => ',' :: lineStart (.lines step) depth

end Layout

/-! A value is written in front of the text that follows it, so that no text is
copied from one level to the next. -/

mutual

/-- Writes a value that stands at a depth in front of `rest`. -/
def write (layout : Layout) (depth : Nat) (value : Json) (rest : List Char) : List Char :=
  match value with
  | .null => 'n' :: 'u' :: 'l' :: 'l' :: rest
  | .bool true => 't' :: 'r' :: 'u' :: 'e' :: rest
  | .bool false => 'f' :: 'a' :: 'l' :: 's' :: 'e' :: rest
  | .number digits => digits.toList ++ rest
  | .string text => writeString text ++ rest
  | .array [] => '[' :: ']' :: rest
  | .array (item :: items) =>
    '[' :: (layout.lineStart (depth + 1) ++
      write layout (depth + 1) item (writeItems layout (depth + 1) items
        (layout.lineStart depth ++ ']' :: rest)))
  | .object [] => '\x7b' :: '\x7d' :: rest
  | .object ((name, value) :: members) =>
    '\x7b' :: (layout.lineStart (depth + 1) ++ (writeString name ++ ':' :: ' ' ::
      write layout (depth + 1) value (writeMembers layout (depth + 1) members
        (layout.lineStart depth ++ '\x7d' :: rest))))

/-- Writes the items after the first in front of `rest`. -/
def writeItems (layout : Layout) (depth : Nat) (items : List Json) (rest : List Char) :
    List Char :=
  match items with
  | [] => rest
  | item :: items =>
    layout.separator depth ++ write layout depth item (writeItems layout depth items rest)

/-- Writes the members after the first in front of `rest`. -/
def writeMembers (layout : Layout) (depth : Nat) (members : List (String × Json))
    (rest : List Char) : List Char :=
  match members with
  | [] => rest
  | (name, value) :: members =>
    layout.separator depth ++ (writeString name ++ ':' :: ' ' ::
      write layout depth value (writeMembers layout depth members rest))

end

/-- The text of a value. -/
def render (layout : Layout) (value : Json) : String := String.ofList (write layout 0 value [])

end Json

end SolidityLint
