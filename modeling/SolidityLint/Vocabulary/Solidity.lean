import SolidityLint.Vocabulary.Basic

/-!
# The Solidity vocabulary

The token types of the Solidity grammar. The first ones belong to texts that
stand in the rules themselves and have no lexer rule of their own; they carry
the symbols `T__0`, `T__1` and so on. The others belong to lexer rules, some of
which match one fixed text.
-/

namespace SolidityLint.Vocabulary

/-- The texts without a lexer rule of their own, in the order of their types. -/
def implicitTexts : List String :=
  ["pragma", ";", "||", "^", "~", ">=", ">", "<", "<=", "=", "as", "import", "*", "from", "\x7b",
   ",", "\x7d", "abstract", "contract", "interface", "library", "is", "(", ")", "override",
   "using", "for", "struct", "modifier", "function", "returns", "event", "enum", "[", "]",
   "address", ".", "mapping", "=>", "memory", "storage", "calldata", "if", "else", "try", "catch",
   "while", "unchecked", "assembly", "do", "return", "throw", "emit", "revert", "var", "bool",
   "string", "byte", "++", "--", "new", ":", "+", "-", "after", "delete", "!", "**", "/", "%",
   "<<", ">>", "&", "|", "==", "!=", "&&", "?", "|=", "^=", "&=", "<<=", ">>=", "+=", "-=", "*=",
   "/=", "%=", "let", ":=", "=:", "switch", "case", "default", "->"]

/-- The lexer rules, in the order of their types, with the text of those that
match one text only. -/
def lexerRules : List (String × Option String) :=
  [("Int", none), ("Uint", none), ("Byte", none), ("Fixed", none), ("Ufixed", none),
   ("BooleanLiteral", none), ("DecimalNumber", none), ("HexNumber", none), ("NumberUnit", none),
   ("HexLiteralFragment", none), ("ReservedKeyword", none),
   ("AnonymousKeyword", some "anonymous"), ("BreakKeyword", some "break"),
   ("ConstantKeyword", some "constant"), ("ImmutableKeyword", some "immutable"),
   ("ContinueKeyword", some "continue"), ("LeaveKeyword", some "leave"),
   ("ExternalKeyword", some "external"), ("IndexedKeyword", some "indexed"),
   ("InternalKeyword", some "internal"), ("PayableKeyword", some "payable"),
   ("PrivateKeyword", some "private"), ("PublicKeyword", some "public"),
   ("VirtualKeyword", some "virtual"), ("PureKeyword", some "pure"), ("TypeKeyword", some "type"),
   ("ViewKeyword", some "view"), ("ConstructorKeyword", some "constructor"),
   ("FallbackKeyword", some "fallback"), ("ReceiveKeyword", some "receive"), ("Identifier", none),
   ("StringLiteralFragment", none), ("VersionLiteral", none), ("WS", none), ("COMMENT", none),
   ("LINE_COMMENT", none)]

/-- The symbol of the implicit token at a place. -/
def implicitSymbol (place : Nat) : String := "T__" ++ toString place

/-- The vocabulary of the Solidity grammar. -/
def solidity : Vocabulary :=
  ofNames
    (none :: implicitTexts.map (fun text => some (inQuotes text))
      ++ lexerRules.map fun rule => rule.2.map inQuotes)
    (none :: (List.range implicitTexts.length).map (fun place => some (implicitSymbol place))
      ++ lexerRules.map fun rule => some rule.1)

end SolidityLint.Vocabulary
