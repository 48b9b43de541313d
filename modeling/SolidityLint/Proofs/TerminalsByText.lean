import Mathlib.Data.List.Find
import SolidityLint.Proofs.NameIndex
import SolidityLint.Proofs.RebuiltTrees
import SolidityLint.Query.Navigation

/-!
# Terminals found by their text

A search for the terminal of a literal never reads a text: it looks the literal up and
compares types. What the builder makes of texts is found all the same as if texts were
compared, because a type says what the text was wherever it is the type of a literal.

That takes two things. A text that is a literal gets the type that the literal name leads to,
also if the name stands at several numbers, and no other literal leads there. A text that is
no literal gets the type of its lexical form, and here the vocabulary has to help: nothing in
a listing keeps a form like `Identifier` from standing at the number of a literal, and then an
identifier would be found for the literal. `FormsApart` excludes this, and only for numbers
that a literal name leads to. A number at which a literal name stands for the second time may
well be the one of a form.
-/

namespace SolidityLint

namespace Vocabulary

variable {vocabulary : Vocabulary}

theorem inQuotes_inj {text other : String} (h : inQuotes text = inQuotes other) : text = other := by
  have hlist := congrArg String.toList h
  simp only [inQuotes, String.toList_append] at hlist
  exact String.toList_inj.mp (List.append_cancel_left (List.append_cancel_right hlist))

/-! ## The types that texts get -/

theorem symbolType_of_requireSymbol {symbol : String} {type : Nat}
    (h : vocabulary.requireSymbol symbol = .ok type) :
    vocabulary.symbolType symbol = type ∧ type ≠ invalidType := by
  rw [requireSymbol] at h
  split at h
  · cases h
  · next hsome =>
      cases h
      exact ⟨rfl, hsome⟩

theorem typeOfText_of_literal {text : String}
    (h : vocabulary.tokenType (inQuotes text) ≠ invalidType) :
    vocabulary.typeOfText text = .ok (vocabulary.tokenType (inQuotes text)) := by
  rw [typeOfText]
  split
  · next hzero => exact absurd hzero h
  · rfl

theorem typeOfText_cases {text : String} {type : Nat}
    (h : vocabulary.typeOfText text = .ok type) :
    (vocabulary.tokenType (inQuotes text) = type ∧ type ≠ invalidType) ∨
      ∃ form, Lexeme.ofText? text = some form ∧
        vocabulary.symbolType form.symbol = type ∧ type ≠ invalidType := by
  rw [typeOfText] at h
  split at h
  · right
    cases hform : Lexeme.ofText? text with
    | none =>
        rw [hform] at h
        cases h
    | some form =>
        rw [hform] at h
        exact ⟨form, rfl, symbolType_of_requireSymbol h⟩
  · next hsome =>
      cases h
      exact .inl ⟨rfl, hsome⟩

theorem token_eq_map (text : String) :
    vocabulary.token text none = (vocabulary.typeOfText text).map fun type => ⟨type, text⟩ := rfl

theorem token_of_literal {text : String}
    (h : vocabulary.tokenType (inQuotes text) ≠ invalidType) :
    vocabulary.token text none = .ok ⟨vocabulary.tokenType (inQuotes text), text⟩ := by
  rw [token_eq_map, typeOfText_of_literal h]
  rfl

theorem typeOfText_of_token {text : String} {token : Token}
    (h : vocabulary.token text none = .ok token) :
    ∃ type : Nat, vocabulary.typeOfText text = .ok type ∧ token = ⟨type, text⟩ := by
  rw [token_eq_map] at h
  cases htype : vocabulary.typeOfText text with
  | error fault =>
      rw [htype] at h
      cases h
  | ok type =>
      rw [htype] at h
      cases h
      exact ⟨type, rfl, rfl⟩

/-- No lexical form has a type that a literal name leads to. -/
def FormsApart (vocabulary : Vocabulary) : Prop :=
  ∀ literal ∈ vocabulary.literalNames, ∀ form : Lexeme,
    vocabulary.symbolType form.symbol ≠ vocabulary.tokenType literal

/-- The type of a literal is that of its own text and of no other. -/
theorem FormsApart.type_eq_iff (h : vocabulary.FormsApart) {text : String} {token : Token}
    (htoken : vocabulary.token text none = .ok token) {literal : String}
    (hliteral : literal ∈ vocabulary.literalNames) :
    token.type = vocabulary.tokenType literal ↔ inQuotes text = literal := by
  have hknown := mem_literalNames_iff.mp hliteral
  obtain ⟨type, htype, rfl⟩ := typeOfText_of_token htoken
  rw [Int.ofNat_inj]
  constructor
  · intro heq
    rcases typeOfText_cases htype with ⟨htext, -⟩ | ⟨form, -, hform, -⟩
    · exact (tokenType_inj hknown (heq.symm.trans htext.symm)).symm
    · exact absurd (hform.trans heq) (h literal hliteral form)
  · rintro rfl
    rw [typeOfText_of_literal hknown] at htype
    cases htype
    rfl

/-- All these texts are literals. -/
def Spells (vocabulary : Vocabulary) (texts : List String) : Prop :=
  ∀ text ∈ texts, inQuotes text ∈ vocabulary.literalNames

end Vocabulary

/-- A literal, or a node that is there. -/
inductive Part.Spelled (vocabulary : Vocabulary) (forest : Forest) : Part → Prop where
  | literal {text : String} (h : Vocabulary.inQuotes text ∈ vocabulary.literalNames) :
      Spelled vocabulary forest (.text text)
  | node {n : NodeId} (h : n < forest.size) : Spelled vocabulary forest (.node (some n))

namespace Forest

/-- All terminals among the children of a node were made of texts. -/
def TextTerminals (forest : Forest) (vocabulary : Vocabulary) (n : NodeId) : Prop :=
  ∀ c ∈ forest.children n, ∀ token, forest.token? c = some token →
    ∃ text, vocabulary.token text none = .ok token

/-- The first child that is a terminal with a text. -/
def terminalOfText? (forest : Forest) (n : NodeId) (text : String) : Option NodeId :=
  (forest.children n).find? fun child => (forest.token? child).any (·.text == text)

theorem TextTerminals.terminalOfType?_eq {forest : Forest} {vocabulary : Vocabulary} {n : NodeId}
    (h : forest.TextTerminals vocabulary n) (hforms : vocabulary.FormsApart) {text : String}
    (hliteral : Vocabulary.inQuotes text ∈ vocabulary.literalNames) :
    forest.terminalOfType? n (vocabulary.tokenType (Vocabulary.inQuotes text)) =
      forest.terminalOfText? n text := by
  refine List.find?_congr fun c hc => ?_
  cases htoken : forest.token? c with
  | none => rfl
  | some token =>
      obtain ⟨text', hmade⟩ := h c hc token htoken
      rw [Option.any_some, Option.any_some, Bool.eq_iff_iff, beq_iff_eq, beq_iff_eq,
        hforms.type_eq_iff hmade hliteral, Vocabulary.text_of_token hmade]
      exact ⟨Vocabulary.inQuotes_inj, congrArg Vocabulary.inQuotes⟩

/-- What a node is made of decides where its terminals come from: texts, if the nodes among
the parts are rule nodes. -/
theorem Grown.textTerminals {before after : Forest} {vocabulary : Vocabulary} {label : RuleLabel}
    {parts : List Part} (h : Grown before after vocabulary label parts)
    (hparts : ∀ n, .node (some n) ∈ parts → before.isRule n = true) :
    after.TextTerminals vocabulary before.size := by
  intro c hc token htoken
  obtain ⟨part, hpart, hattached⟩ := exists_of_mem_right h.attached c hc
  cases hattached with
  | @text text made _ hmade hlabel _ =>
      rw [token?, hlabel] at htoken
      cases htoken
      exact ⟨text, hmade⟩
  | node _ =>
      obtain ⟨label, hlabel⟩ := isRule_iff.mp (hparts c hpart)
      rw [token?, h.extended.label?_eq c (lt_size_of_label? hlabel), hlabel] at htoken
      cases htoken

/-! ## What is made of literals -/

section Literals

variable {forest : Forest} {vocabulary : Vocabulary}

theorem token?_eq_none {n : NodeId} (h : forest.isRule n = true) : forest.token? n = none := by
  obtain ⟨label, hlabel⟩ := isRule_iff.mp h
  rw [token?, hlabel]

theorem AttachedAs.token?_eq {bound n : NodeId} {text : String}
    (h : forest.AttachedAs vocabulary bound (.text text) n)
    (hliteral : Vocabulary.inQuotes text ∈ vocabulary.literalNames) :
    forest.token? n = some ⟨vocabulary.tokenType (Vocabulary.inQuotes text), text⟩ := by
  cases h with
  | text htoken hlabel _ =>
      rw [Vocabulary.token_of_literal (Vocabulary.mem_literalNames_iff.mp hliteral)] at htoken
      cases htoken
      rw [token?, hlabel]

/-- A literal does not get the type of another one. -/
theorem AttachedAs.type_ne {bound n : NodeId} {text other : String}
    (h : forest.AttachedAs vocabulary bound (.text text) n)
    (hliteral : Vocabulary.inQuotes text ∈ vocabulary.literalNames) (hne : text ≠ other)
    {token : Token} (htoken : forest.token? n = some token) :
    token.type ≠ vocabulary.tokenType (Vocabulary.inQuotes other) := by
  intro htype
  rw [h.token?_eq hliteral] at htoken
  cases htoken
  have hknown := Vocabulary.mem_literalNames_iff.mp hliteral
  exact hne (Vocabulary.inQuotes_inj (Vocabulary.tokenType_inj hknown (Int.ofNat_inj.mp htype)))

/-- A node can be made of literals and of nodes that are there. -/
theorem exists_grow (kind : Kind) (hkind : kind.isRule = true) {parts : List Part}
    (hparts : ∀ part ∈ parts, part.Spelled vocabulary forest) :
    ∃ after, forest.grow vocabulary kind parts = (after, .ok forest.size) ∧
      Grown forest after vocabulary (.ofKind kind) parts := by
  rw [grow, if_pos hkind]
  refine growLabelled_grown _ (fun n hn => ?_) fun part hpart => ?_
  · cases hparts _ hn with
    | node hlt => exact hlt
  · cases hparts part hpart with
    | literal hliteral =>
        exact .text (Vocabulary.token_of_literal (Vocabulary.mem_literalNames_iff.mp hliteral))
    | node _ => exact .node _

end Literals

/-- Where the lexical forms are apart from the literals, the search for the terminal of a
literal is a search for its text, in every rule node whose terminals were made of texts. A
literal that the vocabulary does not have is found nowhere, and nothing is found in terminals
and in absent nodes. -/
theorem findTerminal_by_text (forest : Forest) {vocabulary : Vocabulary}
    (hforms : vocabulary.FormsApart) :
    (∀ n, forest.isRule n = true → forest.TextTerminals vocabulary n → ∀ text,
      (forest.findTerminal vocabulary (some n) (Vocabulary.inQuotes text)).value =
        if Vocabulary.inQuotes text ∈ vocabulary.literalNames then forest.terminalOfText? n text
        else none) ∧
    ∀ literal, (forest.findTerminal vocabulary none literal).value = none ∧
      ∀ n, forest.isTerminal n = true →
        (forest.findTerminal vocabulary (some n) literal).value = none := by
  refine ⟨?_, fun literal => ⟨rfl, ?_⟩⟩
  · intro n hrule hterminals text
    rw [value_findTerminal hrule]
    by_cases hliteral : Vocabulary.inQuotes text ∈ vocabulary.literalNames
    · rw [if_neg (Vocabulary.mem_literalNames_iff.mp hliteral), if_pos hliteral]
      exact hterminals.terminalOfType?_eq hforms hliteral
    · rw [if_pos (not_not.mp (mt Vocabulary.mem_literalNames_iff.mpr hliteral)), if_neg hliteral]
  · intro n hterminal
    simp only [findTerminal, Option.filter, isRule_eq_false hterminal]
    rfl

/-- The keyword stands at two numbers, and identifiers have the second one. A name and a string
that holds the keyword in its quotes come before it. -/
theorem findTerminal_by_text_keyword :
    let vocabulary := Vocabulary.ofNames [none, some "'else'", some "'else'"]
      [none, none, some "Identifier", some "StringLiteralFragment"]
    let parts : List Part := [.text "x", .text "'else'", .text "else", .text "else"]
    ∃ after, grow {} vocabulary .statement parts = (after, .ok 0) ∧ vocabulary.FormsApart ∧
      after.TextTerminals vocabulary 0 ∧
      (after.findTerminal vocabulary (some 0) (Vocabulary.inQuotes "else")).value = some 3 ∧
      (after.findTerminal vocabulary (some 0) (Vocabulary.inQuotes "x")).value = none ∧
      (after.findTerminal vocabulary (some 3) (Vocabulary.inQuotes "else")).value = none := by
  intro vocabulary parts
  have htokens : vocabulary.token "x" none = .ok ⟨2, "x"⟩ ∧
      vocabulary.token "'else'" none = .ok ⟨3, "'else'"⟩ ∧
      vocabulary.token "else" none = .ok ⟨1, "else"⟩ := by
    simp only [Vocabulary.token_eq_map, Vocabulary.typeOfText, Vocabulary.requireSymbol,
      Vocabulary.tokenType_eq_find?, Vocabulary.symbolType_eq_find?]
    exact ⟨rfl, rfl, rfl⟩
  let after : Forest := ⟨#[
    { label := .rule (.ofKind .statement), children := [1, 2, 3, 4] },
    { label := .token ⟨2, "x"⟩ false, parent := some 0 },
    { label := .token ⟨3, "'else'"⟩ false, parent := some 0 },
    { label := .token ⟨1, "else"⟩ false, parent := some 0 },
    { label := .token ⟨1, "else"⟩ false, parent := some 0 }]⟩
  have hgrow : growLabelled {} vocabulary (.ofKind .statement) parts = (after, .ok 0) := by
    simp only [growLabelled, attachAll, attach, parts, htokens]
    rfl
  have hforms : vocabulary.FormsApart := by
    have hnames : vocabulary.literalNames = ["'else'", "'else'"] := rfl
    intro literal hliteral form
    obtain rfl : literal = "'else'" := by simpa [hnames] using hliteral
    rw [Vocabulary.tokenType_eq_find?, Vocabulary.symbolType_eq_find?]
    cases form <;> decide +kernel
  have hterminals : after.TextTerminals vocabulary 0 := by
    have hnodes : ∀ n, .node (some n) ∉ parts := by simp [parts]
    obtain ⟨-, hattachable⟩ := growLabelled_eq_ok_iff.mp (congrArg Prod.snd hgrow)
    have hmade : ∃ after, growLabelled {} vocabulary (.ofKind .statement) parts = (after, .ok 0) ∧
        Grown {} after vocabulary (.ofKind .statement) parts :=
      growLabelled_grown _ (fun n hn => absurd hn (hnodes n)) hattachable
    obtain ⟨after', hgrow', hgrown⟩ := hmade
    rw [hgrow] at hgrow'
    cases hgrow'
    exact hgrown.textTerminals fun n hn => absurd hn (hnodes n)
  obtain ⟨hrule, hothers⟩ := findTerminal_by_text after hforms
  refine ⟨after, hgrow, hforms, hterminals, ?_, ?_, (hothers _).2 3 rfl⟩
  · rw [hrule 0 rfl hterminals]
    rfl
  · rw [hrule 0 rfl hterminals]
    rfl

end Forest

end SolidityLint
