import SolidityLint.Json.Basic

/-!
# Reading JSON

A reader for the whole format: blanks between tokens, all escapes, pairs of
surrogates, and numbers, of which the digits are kept. A surrogate without its
partner stands for no character and is refused. The recursion is bounded by
twice the length of the text, which no nesting exceeds.
-/

namespace SolidityLint.Json

/-- Whether a character may stand between tokens. -/
def isBlank (c : Char) : Bool := c == ' ' || c == '\n' || c == '\r' || c == '\t'

/-- The text without blanks in front. -/
def skipBlanks (cs : List Char) : List Char := cs.dropWhile isBlank

/-- The value of a hexadecimal digit. -/
def hexValue? (c : Char) : Option Nat :=
  if '0' ≤ c ∧ c ≤ '9' then some (c.toNat - '0'.toNat)
  else if 'a' ≤ c ∧ c ≤ 'f' then some (c.toNat - 'a'.toNat + 10)
  else if 'A' ≤ c ∧ c ≤ 'F' then some (c.toNat - 'A'.toNat + 10)
  else none

/-- The value of hexadecimal digits after those with the value so far. -/
def readHex? (value : Nat) : List Char → Option Nat
  | [] => some value
  | c :: rest => (hexValue? c).bind fun d => readHex? (16 * value + d) rest

/-- The code of a character that is escaped by a letter. -/
def letterCode? : Char → Option Nat
  | '"' => some 0x22
  | '\\' => some 0x5C
  | '/' => some 0x2F
  | 'b' => some 0x08
  | 'f' => some 0x0C
  | 'n' => some 0x0A
  | 'r' => some 0x0D
  | 't' => some 0x09
  | _ => none

/-- Reads the codes of a string up to its closing quote, and what follows it. -/
def readCodes? : List Char → Option (List Nat × List Char)
  | [] => none
  | '"' :: rest => some ([], rest)
  | '\\' :: 'u' :: a :: b :: c :: d :: rest => do
    let code ← readHex? 0 [a, b, c, d]
    let (codes, rest) ← readCodes? rest
    return (code :: codes, rest)
  | '\\' :: letter :: rest => do
    let code ← letterCode? letter
    let (codes, rest) ← readCodes? rest
    return (code :: codes, rest)
  | c :: rest =>
    if c.toNat < 0x20 ∨ c = '\\' then none
    else do
      let (codes, rest) ← readCodes? rest
      return (c.toNat :: codes, rest)

/-- The character of a code that is no surrogate. -/
def scalar? (code : Nat) : Option Char :=
  if h : code.isValidChar then some (Char.ofNatAux code h) else none

/-- The characters of codes, pairs of surrogates taken together. -/
def joinCodes? : List Nat → Option (List Char)
  | [] => some []
  | [code] => (scalar? code).map ([·])
  | code :: next :: rest =>
    if 0xD800 ≤ code ∧ code < 0xDC00 ∧ 0xDC00 ≤ next ∧ next < 0xE000 then do
      let c ← scalar? (0x10000 + (code - 0xD800) * 0x400 + (next - 0xDC00))
      let cs ← joinCodes? rest
      return c :: cs
    else do
      let c ← scalar? code
      let cs ← joinCodes? (next :: rest)
      return c :: cs

/-- Reads a string after its opening quote. -/
def readString? (cs : List Char) : Option (String × List Char) := do
  let (codes, rest) ← readCodes? cs
  let text ← joinCodes? codes
  return (String.ofList text, rest)

/-- Splits off the digits in front. -/
def spanDigits (cs : List Char) : List Char × List Char := cs.span (·.isDigit)

/-- Splits off the whole part of a number: zero, or digits that do not begin with zero. -/
def readWhole? : List Char → Option (List Char × List Char)
  | '0' :: rest => some (['0'], rest)
  | cs =>
    match spanDigits cs with
    | ([], _) => none
    | digits => some digits

/-- Splits off a fraction, which may be absent. -/
def readFraction? : List Char → Option (List Char × List Char)
  | '.' :: rest =>
    match spanDigits rest with
    | ([], _) => none
    | (digits, rest) => some ('.' :: digits, rest)
  | rest => some ([], rest)

/-- Splits off a sign, which may be absent. -/
def readSign : List Char → List Char × List Char
  | '+' :: rest => (['+'], rest)
  | '-' :: rest => (['-'], rest)
  | rest => ([], rest)

/-- Splits off an exponent, which may be absent. -/
def readExponent? : List Char → Option (List Char × List Char)
  | c :: rest =>
    if c = 'e' ∨ c = 'E' then
      let (sign, rest) := readSign rest
      match spanDigits rest with
      | ([], _) => none
      | (digits, rest) => some (c :: sign ++ digits, rest)
    else some ([], c :: rest)
  | [] => some ([], [])

/-- Reads a number. -/
def readNumber? (cs : List Char) : Option (Json × List Char) := do
  let (sign, cs) := match cs with
    | '-' :: rest => (['-'], rest)
    | rest => ([], rest)
  let (whole, cs) ← readWhole? cs
  let (fraction, cs) ← readFraction? cs
  let (exponent, cs) ← readExponent? cs
  return (.number (String.ofList (sign ++ whole ++ fraction ++ exponent)), cs)

mutual

/-- Reads a value, and what follows it. -/
def readValue? : Nat → List Char → Option (Json × List Char)
  | 0, _ => none
  | bound + 1, cs =>
    match skipBlanks cs with
    | '"' :: rest => do
      let (text, rest) ← readString? rest
      return (.string text, rest)
    | '[' :: rest =>
      match skipBlanks rest with
      | ']' :: rest => some (.array [], rest)
      | rest => do
        let (items, rest) ← readItems? bound rest
        return (.array items, rest)
    | '\x7b' :: rest =>
      match skipBlanks rest with
      | '\x7d' :: rest => some (.object [], rest)
      | rest => do
        let (members, rest) ← readMembers? bound rest
        return (.object members, rest)
    | 'n' :: 'u' :: 'l' :: 'l' :: rest => some (.null, rest)
    | 't' :: 'r' :: 'u' :: 'e' :: rest => some (.bool true, rest)
    | 'f' :: 'a' :: 'l' :: 's' :: 'e' :: rest => some (.bool false, rest)
    | rest => readNumber? rest

/-- Reads items up to the closing bracket. -/
def readItems? : Nat → List Char → Option (List Json × List Char)
  | 0, _ => none
  | bound + 1, cs => do
    let (item, rest) ← readValue? bound cs
    match skipBlanks rest with
    | ',' :: rest => do
      let (items, rest) ← readItems? bound rest
      return (item :: items, rest)
    | ']' :: rest => some ([item], rest)
    | _ => none

/-- Reads members up to the closing brace. -/
def readMembers? : Nat → List Char → Option (List (String × Json) × List Char)
  | 0, _ => none
  | bound + 1, cs => do
    match skipBlanks cs with
    | '"' :: rest => do
      let (name, rest) ← readString? rest
      match skipBlanks rest with
      | ':' :: rest => do
        let (value, rest) ← readValue? bound rest
        match skipBlanks rest with
        | ',' :: rest => do
          let (members, rest) ← readMembers? bound rest
          return ((name, value) :: members, rest)
        | '\x7d' :: rest => some ([(name, value)], rest)
        | _ => none
      | _ => none
    | _ => none

end

/-- Reads a text that holds one value and blanks. -/
def parse? (text : String) : Option Json := do
  let (value, rest) ← readValue? (2 * text.length + 2) text.toList
  if (skipBlanks rest).isEmpty then some value else none

end SolidityLint.Json
