import SolidityLint.Fixture.Expectation
import SolidityLint.Fixture.Verification
import SolidityLint.Forest.Lemmas
import SolidityLint.Json.Reader
import SolidityLint.Query.Question
import SolidityLint.Settings
import SolidityLint.Workspace
import SolidityLint.Proofs.Alike
import SolidityLint.Proofs.Annotations
import SolidityLint.Proofs.BuilderFrame
import SolidityLint.Proofs.BuilderRun
import SolidityLint.Proofs.GeneratedParser
import SolidityLint.Proofs.JsonGrammar
import SolidityLint.Proofs.Links
import SolidityLint.Proofs.ListingFormat
import SolidityLint.Proofs.ListingPrinter
import SolidityLint.Proofs.MirroredTrees
import SolidityLint.Proofs.NameIndex
import SolidityLint.Proofs.Renumbering
import SolidityLint.Proofs.TextPieces
import SolidityLint.Proofs.DumpedDocuments
import SolidityLint.Proofs.RecognizerTables
import SolidityLint.Proofs.DeclaredMutability
import SolidityLint.Proofs.DeclaredVisibility
import SolidityLint.Proofs.RebuiltTrees
import SolidityLint.Proofs.ComparedIssues
import SolidityLint.Proofs.TerminalsByText
import SolidityLint.Proofs.ElseClauses
import SolidityLint.Proofs.ElseIfChains
import SolidityLint.Proofs.EnclosingContracts
import SolidityLint.Proofs.LexicalForms
import SolidityLint.Proofs.Parentheses
import SolidityLint.Proofs.ConditionalExpressions
import SolidityLint.Proofs.ComposedSources
import SolidityLint.Proofs.LineEndings
