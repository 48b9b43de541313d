import Std.Data.HashMap

/-!
# Vocabularies

A grammar numbers its token types from one. A vocabulary gives each number at
most one literal name, which is a text in apostrophes, and at most one symbol,
which is the name of a lexer rule. Number zero is no token type.

Names are looked up through an index that is stored with the tables. The type
holds the proof that the index is the one of the tables, so an index and its
tables cannot part. The scan over all numbers says what the index has to find.

A generated recognizer lists its literal names and symbols by number, and marks a
number without a name by the text `<INVALID>` or by the empty text.

A number that is shown in place of a name is written in full. The limit of
`Text.maxDigits` digits holds where a number is read; that there may be such a limit
where one is written is left out.
-/

namespace SolidityLint

/-- A table of names, by number. -/
abbrev NameTable := Array (Option String)

namespace NameTable

/-- The name of a number; numbers outside the table have none. -/
def name? (table : NameTable) : Int → Option String
  | .ofNat id => (table[id]?).join
  | .negSucc _ => none

/-- The numbered names of a table from number one on. -/
def named (table : NameTable) : List (String × Nat) :=
  (table.toList.drop 1).zipIdx 1 |>.filterMap fun entry => entry.1.map (·, entry.2)

/-- The index of a table: from a name to the least number, from one on, that has it. -/
def index (table : NameTable) : Std.HashMap String Nat :=
  table.named.foldl (fun found entry => found.insertIfNew entry.1 entry.2) ∅

end NameTable

/-- The names of a grammar's token types, with the indexes of the two tables. -/
structure Vocabulary where
  literals : NameTable
  symbols : NameTable
  literalIndex : Std.HashMap String Nat := literals.index
  symbolIndex : Std.HashMap String Nat := symbols.index
  literalIndex_eq : literalIndex = literals.index := by rfl
  symbolIndex_eq : symbolIndex = symbols.index := by rfl

namespace Vocabulary

/-- The number that is no token type. -/
def invalidType : Nat := 0

/-- The vocabulary with the given names, each list counted from number zero. -/
def ofNames (literals symbols : List (Option String)) : Vocabulary :=
  { literals := literals.toArray, symbols := symbols.toArray }

/-- The name behind a text of a recognizer's table. -/
def recognizerName? (text : Option String) : Option String :=
  text.filter fun name => name ≠ "<INVALID>" ∧ name ≠ ""

/-- The vocabulary of a recognizer with the given tables. -/
def ofRecognizer (literals symbols : List (Option String)) : Vocabulary :=
  ofNames (literals.map recognizerName?) (symbols.map recognizerName?)

/-- A text in apostrophes, as literal names are written. -/
def inQuotes (text : String) : String := "'" ++ text ++ "'"

/-- The literal name of a token type. -/
def literalName? (vocabulary : Vocabulary) (type : Int) : Option String :=
  vocabulary.literals.name? type

/-- The symbol of a token type. -/
def symbolName? (vocabulary : Vocabulary) (type : Int) : Option String :=
  vocabulary.symbols.name? type

/-- The name shown for a token type: the literal name, else the symbol, else the
number in decimal. Empty names are passed over. -/
def displayName (vocabulary : Vocabulary) (type : Int) : String :=
  ((vocabulary.literalName? type).filter (· ≠ "")).getD
    (((vocabulary.symbolName? type).filter (· ≠ "")).getD (toString type))

/-- Whether a symbol is the one that a grammar makes up for an implicit token. -/
def isImplicit (symbol : String) : Bool := ['T', '_', '_'].isPrefixOf symbol.toList

/-- The name of a token type in a document: the symbol, unless there is none or
it is the one of an implicit token, and then the name shown. -/
def tokenName (vocabulary : Vocabulary) (type : Int) : String :=
  match vocabulary.symbolName? type with
  | some symbol => if isImplicit symbol then vocabulary.displayName type else symbol
  | none => vocabulary.displayName type

/-- The length of the longer table. -/
def size (vocabulary : Vocabulary) : Nat :=
  max vocabulary.literals.size vocabulary.symbols.size

/-- The highest number that the tables reach; -1 if both are empty. -/
def maxTokenType (vocabulary : Vocabulary) : Int := (vocabulary.size : Int) - 1

/-- The literal names from number one on, in order. -/
def literalNames (vocabulary : Vocabulary) : List String :=
  vocabulary.literals.named.map (·.1)

/-- The token type of a literal name, by the index. -/
def tokenType (vocabulary : Vocabulary) (literal : String) : Nat :=
  vocabulary.literalIndex.getD literal invalidType

/-- The token type of a symbol, by the index. -/
def symbolType (vocabulary : Vocabulary) (symbol : String) : Nat :=
  vocabulary.symbolIndex.getD symbol invalidType

/-- The token type of a literal name, by trying all numbers from one on. -/
def scanTokenType (vocabulary : Vocabulary) (literal : String) : Nat :=
  ((List.range' 1 (vocabulary.size - 1)).find? fun (type : Nat) =>
    vocabulary.literalName? type == some literal).getD invalidType

/-- The numbers from `first` to `last` with their two names and the name shown. -/
def rows (vocabulary : Vocabulary) (first last : Int) :
    List (Int × Option String × Option String × String) :=
  (List.range (last + 1 - first).toNat).map fun (step : Nat) =>
    let type := first + (step : Int)
    (type, vocabulary.literalName? type, vocabulary.symbolName? type, vocabulary.displayName type)

end Vocabulary

end SolidityLint
