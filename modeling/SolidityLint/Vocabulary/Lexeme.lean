import SolidityLint.Fault
import SolidityLint.Vocabulary.Basic

/-!
# Token types of texts

A text that is a literal of the grammar has that literal's type. Any other text
is classified by its lexical form, and has the type of the lexer rule for that
form. One line feed at the end of an identifier or number is passed over.
-/

namespace SolidityLint

/-- The lexical forms of texts that are not literals. -/
inductive Lexeme where
  | identifier
  | decimalNumber
  | hexNumber
  | stringFragment
deriving DecidableEq, Repr

namespace Lexeme

/-- The lexer rule of a form. -/
def symbol : Lexeme → String
  | .identifier => "Identifier"
  | .decimalNumber => "DecimalNumber"
  | .hexNumber => "HexNumber"
  | .stringFragment => "StringLiteralFragment"

/-- Whether a character may begin an identifier. -/
def isIdentifierStart (c : Char) : Bool := c.isAlpha || c == '_' || c == '$'

/-- Whether a character may stand in an identifier. -/
def isIdentifierPart (c : Char) : Bool := isIdentifierStart c || c.isDigit

/-- Whether a character is a hexadecimal digit. -/
def isHexDigit (c : Char) : Bool :=
  c.isDigit || ('a' ≤ c && c ≤ 'f') || ('A' ≤ c && c ≤ 'F')

/-- The text without one line feed at its end. -/
def withoutFinalFeed (cs : List Char) : List Char :=
  if cs.getLast? = some '\n' then cs.dropLast else cs

/-- Whether a text is an identifier. -/
def isIdentifier : List Char → Bool
  | [] => false
  | c :: rest => isIdentifierStart c && rest.all isIdentifierPart

/-- Whether a text is `0x` and hexadecimal digits. -/
def isHexNumber : List Char → Bool
  | '0' :: 'x' :: digits => !digits.isEmpty && digits.all isHexDigit
  | _ => false

/-- What follows one or more digits. -/
def afterDigits? : List Char → Option (List Char)
  | [] => none
  | c :: rest => if c.isDigit then some (rest.dropWhile (·.isDigit)) else none

/-- What follows a fraction, which may be absent. -/
def afterFraction? : List Char → Option (List Char)
  | '.' :: rest => afterDigits? rest
  | rest => some rest

/-- What follows an exponent, which may be absent. -/
def afterExponent? : List Char → Option (List Char)
  | 'e' :: rest => afterDigits? rest
  | 'E' :: rest => afterDigits? rest
  | rest => some rest

/-- Whether a text is a decimal number: digits, with underscores after the first,
then perhaps a fraction, then perhaps an exponent. -/
def isDecimalNumber : List Char → Bool
  | [] => false
  | c :: rest =>
    c.isDigit &&
      (afterFraction? (rest.dropWhile fun d => d.isDigit || d == '_')).bind afterExponent? ==
        some []

/-- Whether a text begins and ends with one and the same quote. -/
def isStringFragment (cs : List Char) : Bool :=
  match cs with
  | quote :: _ :: _ => (quote == '\x27' || quote == '"') && cs.getLast? == some quote
  | _ => false

/-- The lexical form of a text. -/
def ofText? (text : String) : Option Lexeme :=
  let cs := text.toList
  let body := withoutFinalFeed cs
  if isIdentifier body then some .identifier
  else if isHexNumber body then some .hexNumber
  else if isDecimalNumber body then some .decimalNumber
  else if isStringFragment cs then some .stringFragment
  else none

end Lexeme

namespace Vocabulary

/-- The type of a symbol that the vocabulary must have. -/
def requireSymbol (vocabulary : Vocabulary) (symbol : String) : Except Fault Nat :=
  match vocabulary.symbolType symbol with
  | 0 => .error (.vocabulary (.unknownSymbol symbol))
  | type => .ok type

/-- The type of a text: as a literal, else by its form. -/
def typeOfText (vocabulary : Vocabulary) (text : String) : Except Fault Nat :=
  match vocabulary.tokenType (inQuotes text) with
  | 0 =>
    match Lexeme.ofText? text with
    | some form => vocabulary.requireSymbol form.symbol
    | none => .error (.vocabulary (.noTokenType text))
  | type => .ok type

end Vocabulary

end SolidityLint
