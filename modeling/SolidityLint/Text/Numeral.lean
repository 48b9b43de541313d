import SolidityLint.Text.Basic

/-!
# Integers in text

An integer is written as an optional sign and one or more decimal digits, in any
script, with single underscores allowed between digits. Blanks may stand around
it, other than the four information separators, which are blank elsewhere. A
numeral of more than `maxDigits` digits is refused whatever its value.

The decimal digits of every script come in runs of ten, zero first. A run is
known by the code point of its zero, so the table of digits is the list of zeros,
for Unicode 14. The first one is the ASCII zero.
-/

namespace SolidityLint.Text

/-- The code points of the digit zero, one for each run of ten digits. -/
def digitZeros : List Nat :=
  [0x30, 0x660, 0x6F0, 0x7C0, 0x966, 0x9E6, 0xA66, 0xAE6, 0xB66, 0xBE6, 0xC66, 0xCE6, 0xD66,
   0xDE6, 0xE50, 0xED0, 0xF20, 0x1040, 0x1090, 0x17E0, 0x1810, 0x1946, 0x19D0, 0x1A80, 0x1A90,
   0x1B50, 0x1BB0, 0x1C40, 0x1C50, 0xA620, 0xA8D0, 0xA900, 0xA9D0, 0xA9F0, 0xAA50, 0xABF0, 0xFF10,
   0x104A0, 0x10D30, 0x11066, 0x110F0, 0x11136, 0x111D0, 0x112F0, 0x11450, 0x114D0, 0x11650,
   0x116C0, 0x11730, 0x118E0, 0x11950, 0x11C50, 0x11D50, 0x11DA0, 0x16A60, 0x16AC0, 0x16B50,
   0x1D7CE, 0x1D7D8, 0x1D7E2, 0x1D7EC, 0x1D7F6, 0x1E140, 0x1E2F0, 0x1E950, 0x1FBF0]

/-- The value of a decimal digit of any script. -/
def decimalValue? (c : Char) : Option Nat :=
  (digitZeros.find? fun start => start ≤ c.toNat && c.toNat < start + 10).map (c.toNat - ·)

/-- Blanks that may surround a numeral. -/
def isNumeralBlank (c : Char) : Bool :=
  isBlank c && !(0x1C ≤ c.toNat && c.toNat ≤ 0x1F)

/-- The largest number of digits of a numeral, underscores not counted. -/
def maxDigits : Nat := 4300

/-- Reads the digits after the first, with the value of the digits so far. -/
def readDigits? (value : Nat) : List Char → Option Nat
  | [] => some value
  | '_' :: c :: rest => (decimalValue? c).bind fun d => readDigits? (10 * value + d) rest
  | c :: rest => (decimalValue? c).bind fun d => readDigits? (10 * value + d) rest

/-- Reads a numeral without sign or blanks. -/
def readNatural? (cs : List Char) : Option Nat :=
  match cs with
  | [] => none
  | c :: rest =>
    if maxDigits < (cs.filter (· ≠ '_')).length then none
    else (decimalValue? c).bind fun d => readDigits? d rest

/-- Reads an integer that may have a sign and blanks around it. -/
def readInteger? (cs : List Char) : Option Int :=
  match dropEndWhile isNumeralBlank (cs.dropWhile isNumeralBlank) with
  | '-' :: rest => (readNatural? rest).map fun n => -(n : Int)
  | '+' :: rest => (readNatural? rest).map Int.ofNat
  | rest => (readNatural? rest).map Int.ofNat

end SolidityLint.Text
