import SolidityLint.Trace.Traced
import SolidityLint.Vocabulary.Listing
import SolidityLint.Vocabulary.Solidity

/-!
# Settings

The version of the library, and the vocabulary that operations use if they are
given none. It is the Solidity vocabulary, unless the settings name a file with a
listing to use instead. The default vocabulary is kept once it is loaded; later
changes of the settings do not show until it is forgotten. A file that cannot be
loaded is not kept.
-/

namespace SolidityLint

/-- The version of the library. -/
def version : String := "0.1.0"

/-- A file that the settings name. -/
inductive ListingFile where
  | absent
  | holding (bytes : ByteArray)

namespace ListingFile

/-- The vocabulary of a listing in a file. -/
def load : ListingFile → Except Fault Vocabulary
  | .absent => .error .fileNotFound
  | .holding bytes =>
    match String.fromUTF8? bytes with
    | some text => Vocabulary.ofListing text
    | none => .error .notUtf8

end ListingFile

/-- The file to use instead of the bundled listing, and the default vocabulary
if it is loaded. -/
structure Settings where
  file : Option ListingFile := none
  kept : Option Vocabulary := some Vocabulary.solidity

namespace Settings

/-- The place that the default vocabulary is loaded from. -/
def place (settings : Settings) : String :=
  if settings.file.isSome then "override" else "bundled"

/-- Loads the vocabulary that the settings name. -/
def load (settings : Settings) : Checked Vocabulary := do
  let vocabulary ← Checked.ofExcept (match settings.file with
    | some file => file.load
    | none => .ok Vocabulary.solidity)
  Traced.emit (.loaded vocabulary.maxTokenType settings.place)
  return vocabulary

/-- Forgets the default vocabulary. -/
def forget (settings : Settings) : Settings := { settings with kept := none }

/-- The default vocabulary: the one kept, else the one loaded now. -/
def default (settings : Settings) : Settings × Checked Vocabulary :=
  match settings.kept with
  | some vocabulary => (settings, return vocabulary)
  | none =>
    let loaded := settings.load
    ({ settings with kept := loaded.outcome.toOption }, loaded)

end Settings

end SolidityLint
