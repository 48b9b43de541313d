import Mathlib.Data.List.Forall2
import SolidityLint.Proofs.Alike
import SolidityLint.Proofs.ListingFormat
import SolidityLint.Proofs.NameIndex

/-!
# A listing and a recognizer's tables are interchangeable

One grammar leaves two descriptions of its vocabulary behind: the listing, and the
tables in the generated recognizer. They do not hold the same. The listing names
implicit tokens, `T__0` and so on, where the recognizer has only a mark. The listing
makes two tables of one length, where those of the recognizer end as soon as nothing
but marks would follow. And a mark may be either of two texts.

None of this can be seen. `Transcribed.name?_eq` is the one lemma that looks at the
texts: reading a transcribed table back gives at every number the name that the table
had there, unless it was to be left out. For literal names nothing is left out, so the
two vocabularies find the same numbers. For symbols only those of implicit tokens are,
and these tokens have a literal name, which is the one that is shown for them anyway.

What a query sees of a vocabulary are the numbers of literals and the names shown, so
every forest looks the same under both (`Alike`), and the lemmas there carry that to all
questions.
-/

namespace SolidityLint

/-! ## Transcribed tables -/

namespace NameTable

/-- The texts that stand for no name. -/
def IsMark (text : Option String) : Prop := text = some "<INVALID>" ∨ text = some ""

instance : DecidablePred IsMark := fun _ => inferInstanceAs (Decidable (_ ∨ _))

/-- What a recognizer writes for a number: the name, or a mark if there is none or it is
left out. -/
inductive WrittenAs (omitted : String → Bool) : Option String → Option String → Prop where
  | name {name : String} (h : omitted name = false) : WrittenAs omitted (some name) (some name)
  | omitted {name : String} {text : Option String} (h : omitted name = true)
      (mark : IsMark text) : WrittenAs omitted (some name) text
  | absent {text : Option String} (mark : IsMark text) : WrittenAs omitted none text

/-- The texts are those for the numbers of the table from zero on, but marks at the end
may be missing. -/
def Transcribed (omitted : String → Bool) (table : NameTable) (texts : List (Option String)) :
    Prop :=
  ∃ marks, (∀ mark ∈ marks, IsMark mark) ∧
    List.Forall₂ (WrittenAs omitted) table.toList (texts ++ marks)

/-- No name of the table could be taken for a mark. -/
def Unmarked (table : NameTable) : Prop := ∀ id : Int, ¬ IsMark (table.name? id)

theorem IsMark.recognizerName?_eq {text : Option String} (h : IsMark text) :
    Vocabulary.recognizerName? text = none := by
  rcases h with rfl | rfl <;> rfl

theorem WrittenAs.recognizerName?_eq {omitted : String → Bool} {name text : Option String}
    (h : WrittenAs omitted name text) (hname : ¬ IsMark name) :
    Vocabulary.recognizerName? text = name.filter (!omitted ·) := by
  cases h with
  | @name name h =>
      have hplain : name ≠ "<INVALID>" ∧ name ≠ "" := by simpa [IsMark] using hname
      simp [Vocabulary.recognizerName?, Option.filter, hplain, h]
  | omitted h mark => rw [mark.recognizerName?_eq, Option.filter_some, h]; rfl
  | absent mark => rw [mark.recognizerName?_eq]; rfl

theorem unmarked_iff {table : NameTable} :
    table.Unmarked ↔ ∀ name ∈ table.toList, ¬ IsMark name := by
  constructor
  · intro h name hmem
    obtain ⟨n, hn⟩ := List.mem_iff_getElem?.mp hmem
    have hname := h n
    rwa [name?_natCast, hn, Option.join_some] at hname
  · intro h id
    have hnone : ¬ IsMark none := by simp [IsMark]
    match id with
    | .negSucc _ => exact hnone
    | .ofNat n =>
        show ¬ IsMark (table.name? n)
        rw [name?_natCast]
        cases hget : table.toList[n]? with
        | none => exact hnone
        | some name => exact h name (List.mem_of_getElem? hget)

theorem map_recognizerName? {omitted : String → Bool} {names texts : List (Option String)}
    (h : List.Forall₂ (WrittenAs omitted) names texts) (hnames : ∀ name ∈ names, ¬ IsMark name) :
    texts.map Vocabulary.recognizerName? = names.map (·.filter (!omitted ·)) := by
  induction h with
  | nil => rfl
  | cons hfirst _ ih =>
      obtain ⟨hname, hrest⟩ := List.forall_mem_cons.mp hnames
      rw [List.map_cons, List.map_cons, hfirst.recognizerName?_eq hname, ih hrest]

theorem map_recognizerName?_marks {marks : List (Option String)}
    (h : ∀ mark ∈ marks, IsMark mark) :
    marks.map Vocabulary.recognizerName? = List.replicate marks.length none := by
  refine List.eq_replicate_iff.mpr ⟨List.length_map _, ?_⟩
  intro name hname
  obtain ⟨mark, hmark, rfl⟩ := List.mem_map.mp hname
  exact (h mark hmark).recognizerName?_eq

/-- Names of numbers past the end of a list are as absent as those that are marked so. -/
theorem join_getElem?_append_replicate (names : List (Option String)) (k n : Nat) :
    (names ++ List.replicate k none)[n]?.join = names[n]?.join := by
  rw [List.getElem?_append]
  split
  · rfl
  · next hn =>
      rw [List.getElem?_eq_none (Nat.le_of_not_lt hn), List.getElem?_replicate]
      split <;> rfl

/-- Reading a transcribed table gives the names that were not left out. -/
theorem Transcribed.name?_eq {omitted : String → Bool} {table : NameTable}
    {texts : List (Option String)} (h : table.Transcribed omitted texts)
    (hunmarked : table.Unmarked) (id : Int) :
    NameTable.name? (texts.map Vocabulary.recognizerName?).toArray id =
      (table.name? id).filter (!omitted ·) := by
  obtain ⟨marks, hmarks, hwritten⟩ := h
  have hnames := map_recognizerName? hwritten (unmarked_iff.mp hunmarked)
  rw [List.map_append, map_recognizerName?_marks hmarks] at hnames
  match id with
  | .negSucc _ => rfl
  | .ofNat n =>
      show NameTable.name? _ (n : Int) = (table.name? (n : Int)).filter _
      rw [name?_natCast, name?_natCast, ← join_getElem?_append_replicate _ marks.length, hnames,
        List.getElem?_map]
      cases table.toList[n]? <;> rfl

theorem FoundAt.of_name?_eq {table other : NameTable} {name : String} {id : Nat}
    (h : table.FoundAt name id)
    (heq : ∀ k : Nat, other.name? k = some name ↔ table.name? k = some name) :
    other.FoundAt name id := by
  simpa only [FoundAt, ne_eq, heq] using h

end NameTable

/-! ## Vocabularies that cannot be told apart -/

/-- The vocabularies find the same numbers, show the same names, and lead to the same
answers. Only the symbols of implicit tokens may differ. -/
structure Vocabulary.Interchangeable (v w : Vocabulary) : Prop where
  tokenType : ∀ literal, v.tokenType literal = w.tokenType literal
  scanTokenType : ∀ literal, v.scanTokenType literal = w.scanTokenType literal
  symbolType : ∀ symbol, isImplicit symbol = false → v.symbolType symbol = w.symbolType symbol
  literalName? : ∀ type : Int, v.literalName? type = w.literalName? type
  displayName : ∀ type : Int, v.displayName type = w.displayName type
  document : ∀ (forest : Forest) (n : NodeId), forest.document v n = forest.document w n
  ask : ∀ (forest : Forest) (node : Option NodeId) (question : Question),
    forest.ask v node question = forest.ask w node question
  isPayable : ∀ (forest : Forest) (entries : List (Option NodeId)),
    forest.isPayable v entries = forest.isPayable w entries
  isReadOnly : ∀ (forest : Forest) (entries : List (Option NodeId)),
    forest.isReadOnly v entries = forest.isReadOnly w entries

section Lookups

variable {v w : Vocabulary} (htype : ∀ literal, v.tokenType literal = w.tokenType literal)
  (hname : ∀ type : Int, v.tokenName type = w.tokenName type)
include htype hname

/-- A forest looks the same under vocabularies with the same lookups. -/
theorem Forest.alike_self (forest : Forest) : Forest.Alike v w forest forest := by
  have htypes : ∀ type, v.TypesAlike w type type := by
    intro type
    refine ⟨?_, hname type⟩
    intro literal _
    rw [htype]
  intro n
  cases forest.node? n with
  | none => exact .none
  | some node =>
      refine .some ⟨?_, rfl, rfl⟩
      match node.label with
      | .rule label => exact .rule rfl rfl
      | .token ⟨type, text⟩ erroneous => exact .token text erroneous (htypes type)
      | .gap => exact .gap

/-- No question needs more of a vocabulary than the lookups. -/
theorem Forest.ask_congr (forest : Forest) (node : Option NodeId) (question : Question) :
    forest.ask v node question = forest.ask w node question := by
  have hliterals : v.SameLiterals w := by
    intro literal
    rw [htype]
  by_cases hrule : question = .ruleIndex ∨ question = .ruleName ∨ question = .tokenType
  · rcases hrule with rfl | rfl | rfl <;> rfl
  · simp only [not_or] at hrule
    exact (Forest.alike_self htype hname forest).ask_eq hliterals node hrule.1 hrule.2.1 hrule.2.2

end Lookups

/-- The second vocabulary has the names of the first one except the symbols of implicit
tokens, all of which have a literal name to be shown by. -/
structure Vocabulary.WithoutImplicits (v w : Vocabulary) : Prop where
  literalName?_eq : ∀ type : Int, w.literalName? type = v.literalName? type
  symbolName?_eq : ∀ type : Int, w.symbolName? type = (v.symbolName? type).filter (!isImplicit ·)
  literal_of_implicit : ∀ (type : Int) (symbol : String), v.symbolName? type = some symbol →
    isImplicit symbol = true → ∃ literal, v.literalName? type = some literal ∧ literal ≠ ""

namespace Vocabulary.WithoutImplicits

variable {v w : Vocabulary}

theorem foundAt_literal (h : WithoutImplicits v w) {literal : String} {id : Nat}
    (hfound : w.literals.FoundAt literal id) : v.literals.FoundAt literal id := by
  refine hfound.of_name?_eq ?_
  intro k
  show v.literalName? k = some literal ↔ w.literalName? k = some literal
  rw [h.literalName?_eq]

theorem tokenType_eq (h : WithoutImplicits v w) (literal : String) :
    v.tokenType literal = w.tokenType literal :=
  (v.foundAt_tokenType literal).unique (h.foundAt_literal (w.foundAt_tokenType literal))

theorem scanTokenType_eq (h : WithoutImplicits v w) (literal : String) :
    v.scanTokenType literal = w.scanTokenType literal :=
  (v.foundAt_scanTokenType literal).unique (h.foundAt_literal (w.foundAt_scanTokenType literal))

theorem symbolType_eq (h : WithoutImplicits v w) {symbol : String}
    (hsymbol : isImplicit symbol = false) : v.symbolType symbol = w.symbolType symbol := by
  refine (v.foundAt_symbolType symbol).unique ((w.foundAt_symbolType symbol).of_name?_eq ?_)
  intro k
  show v.symbolName? k = some symbol ↔ w.symbolName? k = some symbol
  rw [h.symbolName?_eq, Option.filter_eq_some_iff]
  simp [hsymbol]

theorem displayName_eq (h : WithoutImplicits v w) (type : Int) :
    v.displayName type = w.displayName type := by
  rw [displayName, displayName, h.literalName?_eq, h.symbolName?_eq]
  cases hname : v.symbolName? type with
  | none => rfl
  | some symbol =>
      cases himplicit : isImplicit symbol with
      | false => simp [Option.filter, himplicit]
      | true =>
          obtain ⟨literal, hliteral, hne⟩ := h.literal_of_implicit type symbol hname himplicit
          simp [hliteral, Option.filter, hne]

theorem tokenName_eq (h : WithoutImplicits v w) (type : Int) :
    v.tokenName type = w.tokenName type := by
  rw [tokenName, tokenName, h.symbolName?_eq, h.displayName_eq]
  cases v.symbolName? type with
  | none => rfl
  | some symbol =>
      cases himplicit : isImplicit symbol with
      | true => simp [Option.filter, himplicit]
      | false => simp [Option.filter, himplicit]

theorem interchangeable (h : WithoutImplicits v w) : Interchangeable v w := by
  have hliterals : v.SameLiterals w := by
    intro literal
    rw [h.tokenType_eq]
  have halike : ∀ forest : Forest, Forest.Alike v w forest forest :=
    Forest.alike_self h.tokenType_eq h.tokenName_eq
  exact
    { tokenType := h.tokenType_eq
      scanTokenType := h.scanTokenType_eq
      symbolType := fun _ hsymbol => h.symbolType_eq hsymbol
      literalName? := fun type => (h.literalName?_eq type).symm
      displayName := h.displayName_eq
      document := fun forest => congrFun (halike forest).document_eq
      ask := Forest.ask_congr h.tokenType_eq h.tokenName_eq
      isPayable := fun forest => congrFun ((halike forest).isPayable_eq hliterals)
      isReadOnly := fun forest => congrFun ((halike forest).isReadOnly_eq hliterals) }

end Vocabulary.WithoutImplicits

namespace Vocabulary

theorem ofRecognizer_withoutImplicits {v : Vocabulary} {literals symbols : List (Option String)}
    (hunmarked : v.literals.Unmarked ∧ v.symbols.Unmarked)
    (himplicit : ∀ (type : Int) (symbol : String), v.symbolName? type = some symbol →
      isImplicit symbol = true → ∃ literal, v.literalName? type = some literal)
    (hliterals : v.literals.Transcribed (fun _ => false) literals)
    (hsymbols : v.symbols.Transcribed isImplicit symbols) :
    WithoutImplicits v (ofRecognizer literals symbols) where
  literalName?_eq type := by
    refine (hliterals.name?_eq hunmarked.1 type).trans ?_
    show _ = v.literals.name? type
    cases v.literals.name? type <;> rfl
  symbolName?_eq type := hsymbols.name?_eq hunmarked.2 type
  literal_of_implicit type symbol hsymbol hprefix := by
    obtain ⟨literal, hliteral⟩ := himplicit type symbol hsymbol hprefix
    refine ⟨literal, hliteral, ?_⟩
    rintro rfl
    exact hunmarked.1 type (.inr hliteral)

/-- The vocabulary of a listing and the one of a recognizer for the same grammar are
interchangeable. The recognizer has the literal names of the listing and its symbols, except
those of implicit tokens; it writes a mark where it has no name, and may leave out marks at
the end of a table. Of the listing it is asked that no name is itself a mark, and that
implicit tokens have a literal name. -/
theorem ofListing_interchangeable {text : String} {vocabulary : Vocabulary}
    (h : ofListing text = .ok vocabulary)
    (hinvalid : ∀ type : Int, vocabulary.literalName? type ≠ some "<INVALID>" ∧
      vocabulary.symbolName? type ≠ some "<INVALID>")
    (himplicit : ∀ (type : Int) (symbol : String), vocabulary.symbolName? type = some symbol →
      isImplicit symbol = true → ∃ literal, vocabulary.literalName? type = some literal)
    {literals symbols : List (Option String)}
    (hliterals : vocabulary.literals.Transcribed (fun _ => false) literals)
    (hsymbols : vocabulary.symbols.Transcribed isImplicit symbols) :
    Interchangeable vocabulary (ofRecognizer literals symbols) := by
  have hempty := names_ne_empty_of_ofListing h
  have hunmarked : vocabulary.literals.Unmarked ∧ vocabulary.symbols.Unmarked := by
    constructor
    · intro type hmark
      exact hmark.elim (hinvalid type).1 (hempty type).1
    · intro type hmark
      exact hmark.elim (hinvalid type).2 (hempty type).2
  exact (ofRecognizer_withoutImplicits hunmarked himplicit hliterals hsymbols).interchangeable

/-- Three implicit tokens, written with either mark, the last of them behind the end of the
recognizer's symbols. -/
theorem ofListing_interchangeable_implicit :
    let recognizer := ofRecognizer
      [some "<INVALID>", some "'else'", some "'('", some "<INVALID>", some "';'"]
      [some "<INVALID>", some "", some "<INVALID>", some "Identifier"]
    ∃ vocabulary, ofListing "T__0=1\n'else'=1\nT__1=2\n'('=2\nIdentifier=3\n';'=4\nT__2=4" =
        .ok vocabulary ∧
      vocabulary.symbolName? 4 = some "T__2" ∧ recognizer.symbolName? 4 = none ∧
      Interchangeable vocabulary recognizer := by
  intro recognizer
  let vocabulary := ofNames [none, some "'else'", some "'('", none, some "';'"]
    [none, some "T__0", some "T__1", some "Identifier", some "T__2"]
  have hof : ofListing "T__0=1\n'else'=1\nT__1=2\n'('=2\nIdentifier=3\n';'=4\nT__2=4" =
      .ok vocabulary := by
    have hread : readEntries (Text.numberedLines
        "T__0=1\n'else'=1\nT__1=2\n'('=2\nIdentifier=3\n';'=4\nT__2=4".toList) =
        .ok [⟨"T__0", 1⟩, ⟨"'else'", 1⟩, ⟨"T__1", 2⟩, ⟨"'('", 2⟩, ⟨"Identifier", 3⟩, ⟨"';'", 4⟩,
          ⟨"T__2", 4⟩] := by rfl
    rw [ofListing, hread]
    rfl
  have hliterals : vocabulary.literals.Unmarked := NameTable.unmarked_iff.mpr (by decide)
  have hsymbols : vocabulary.symbols.Unmarked := NameTable.unmarked_iff.mpr (by decide)
  refine ⟨vocabulary, hof, rfl, rfl, ofListing_interchangeable hof ?_ ?_ ⟨[], ?_⟩ ⟨[some ""], ?_⟩⟩
  · intro type
    exact ⟨fun hname => hliterals type (.inl hname), fun hname => hsymbols type (.inl hname)⟩
  · intro type symbol hsymbol himplicit
    rcases type with (_ | _ | _ | _ | _ | n) | n
    · cases hsymbol
    · exact ⟨_, rfl⟩
    · exact ⟨_, rfl⟩
    · cases hsymbol
      exact absurd himplicit (by decide)
    · exact ⟨_, rfl⟩
    · cases hsymbol
    · cases hsymbol
  · have hmark : NameTable.IsMark (some "<INVALID>") := .inl rfl
    exact ⟨List.forall_mem_nil _, .cons (.absent hmark) (.cons (.name rfl) (.cons (.name rfl)
      (.cons (.absent hmark) (.cons (.name rfl) .nil))))⟩
  · have hmark : NameTable.IsMark (some "<INVALID>") := .inl rfl
    have hempty : NameTable.IsMark (some "") := .inr rfl
    refine ⟨List.forall_mem_singleton.mpr hempty, ?_⟩
    exact .cons (.absent hmark) (.cons (.omitted (by decide) hempty)
      (.cons (.omitted (by decide) hmark) (.cons (.name (by decide))
      (.cons (.omitted (by decide) hempty) .nil))))

end Vocabulary

end SolidityLint
