/-!
# Blanks, lines and pieces of a text

The characters that count as blank at the ends of a line are given by closed ranges
of code points, and a text is trimmed by them.

A text is cut at its line breaks. A carriage return followed by a line feed is
one break. A break ends a line rather than separating two, so that a text that
ends in a break has no empty line after it, and the empty text has no line.

Inside a line, a piece is searched for from the left and a character from the right.
-/

namespace SolidityLint.Text

/-! ## Blanks -/

/-- Whether a code point lies in one of the closed ranges. -/
def inRanges (ranges : List (Nat × Nat)) (n : Nat) : Bool :=
  ranges.any fun range => range.1 ≤ n && n ≤ range.2

/-- The closed ranges of the blank characters. -/
def blankRanges : List (Nat × Nat) :=
  [(0x09, 0x0D), (0x1C, 0x20), (0x85, 0x85), (0xA0, 0xA0), (0x1680, 0x1680), (0x2000, 0x200A),
   (0x2028, 0x2029), (0x202F, 0x202F), (0x205F, 0x205F), (0x3000, 0x3000)]

/-- Whether a character is blank. -/
def isBlank (c : Char) : Bool := inRanges blankRanges c.toNat

/-- The text without the characters of a class at its end. -/
def dropEndWhile (p : Char → Bool) (cs : List Char) : List Char :=
  (cs.reverse.dropWhile p).reverse

/-- The text without the blanks at its end. -/
def trimEnd (cs : List Char) : List Char := dropEndWhile isBlank cs

/-- The text without the blanks at both ends. -/
def trim (cs : List Char) : List Char := trimEnd (cs.dropWhile isBlank)

/-! ## Lines -/

/-- Whether a character ends a line: line feed, carriage return, vertical tab,
form feed, the three information separators above the unit separator, next line,
and the line and paragraph separators. -/
def isBreak (c : Char) : Bool :=
  [0x0A, 0x0B, 0x0C, 0x0D, 0x1C, 0x1D, 0x1E, 0x85, 0x2028, 0x2029].contains c.toNat

/-- The lines of a text, without their breaks. -/
def lines : List Char → List (List Char)
  | [] => []
  | '\r' :: '\n' :: rest => [] :: lines rest
  | c :: rest =>
    if isBreak c then [] :: lines rest
    else match lines rest with
      | [] => [[c]]
      | line :: more => (c :: line) :: more

/-- The lines of a text with their numbers, counted from one. -/
def numberedLines (cs : List Char) : List (List Char × Nat) := (lines cs).zipIdx 1

/-! ## Pieces -/

/-- The part of a text from the first occurrence of `piece` on. -/
def fromFirst? (piece : List Char) : List Char → Option (List Char)
  | [] => if piece.isEmpty then some [] else none
  | c :: rest => if piece.isPrefixOf (c :: rest) then some (c :: rest) else fromFirst? piece rest

/-- What stands before and after the last occurrence of a character. -/
def cutAtLast? (sep : Char) : List Char → Option (List Char × List Char)
  | [] => none
  | c :: rest =>
    match cutAtLast? sep rest with
    | some (before, after) => some (c :: before, after)
    | none => if c = sep then some ([], rest) else none

end SolidityLint.Text
