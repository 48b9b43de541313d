import Mathlib.Data.List.Pairwise
import SolidityLint.Forest.Sketch
import SolidityLint.Proofs.Alike
import SolidityLint.Proofs.NameIndex

/-!
# Token types do not leak

A grammar that is compiled again may number its token types anew. Nothing that is
asked of a tree should depend on that, as long as the tree was built with the
vocabulary that it is asked with.

The names carry the argument. A name that occurs once in a table leads to the number
that has it, so looking it up after the renumbering leads to the new number of the
same type (`foundAt_renumbered`). If a name occurred twice, the least number would
win, and which one that is does depend on the numbers. The builder only makes tokens
of types that it has looked up, so every type in a built tree has a name, and it is
shown by that name. The one place where a number would be shown, the name of a type
that has none, is out of reach.

So the builder makes `Alike` forests of one sketch, node by node, or fails with the
same fault, which names a text, a symbol or a kind and never a number.
-/

namespace SolidityLint

/-! ## Renumbered vocabularies -/

/-- Every name stands at one number only, from number one on. -/
def NameTable.Once (table : NameTable) : Prop :=
  ∀ (name : String) (i j : Nat), 1 ≤ i → 1 ≤ j →
    table.name? i = some name → table.name? j = some name → i = j

theorem NameTable.once_iff {table : NameTable} :
    table.Once ↔ table.named.Pairwise fun a b => a.1 ≠ b.1 := by
  constructor
  · intro honce
    refine (pairwise_named table).imp_of_mem fun {a b} ha hb hlt hname => ?_
    obtain ⟨hi, hni⟩ := mem_named.mp ha
    obtain ⟨hj, hnj⟩ := mem_named.mp hb
    exact Nat.ne_of_lt hlt (honce b.1 a.2 b.2 hi hj (hname ▸ hni) hnj)
  · intro hpairs name i j hi hj hni hnj
    have hsymm : Std.Symm fun a b : String × Nat => a.1 ≠ b.1 := ⟨fun _ _ hab => hab.symm⟩
    refine Decidable.byContradiction fun hne => ?_
    have hpair : (name, i) ≠ (name, j) := fun heq => hne (congrArg Prod.snd heq)
    exact hpairs.forall (mem_named.mpr ⟨hi, hni⟩) (mem_named.mpr ⟨hj, hnj⟩) hpair rfl

instance (table : NameTable) : Decidable table.Once := decidable_of_iff _ NameTable.once_iff.symm

/-- The second vocabulary has the names of the first one at other numbers. -/
structure Renumbering (π : Nat → Nat) (v w : Vocabulary) : Prop where
  literals_once : v.literals.Once
  symbols_once : v.symbols.Once
  pos : ∀ t, 1 ≤ t → 1 ≤ π t
  injective : ∀ s t, 1 ≤ s → 1 ≤ t → π s = π t → s = t
  literalName?_eq : ∀ t : Nat, 1 ≤ t → w.literalName? (π t) = v.literalName? t
  symbolName?_eq : ∀ t : Nat, 1 ≤ t → w.symbolName? (π t) = v.symbolName? t
  nameless : ∀ u : Nat, 1 ≤ u → (∀ t, 1 ≤ t → π t ≠ u) →
    w.literalName? u = none ∧ w.symbolName? u = none

/-- Where a name of a renumbered table has to be found. -/
theorem NameTable.foundAt_renumbered {π : Nat → Nat} {old new : NameTable} (honce : old.Once)
    (hpos : ∀ t, 1 ≤ t → 1 ≤ π t) (hname : ∀ t : Nat, 1 ≤ t → new.name? (π t) = old.name? t)
    (hnone : ∀ u : Nat, 1 ≤ u → (∀ t, 1 ≤ t → π t ≠ u) → new.name? u = none)
    {name : String} {id : Nat} (h : old.FoundAt name id) :
    new.FoundAt name (if id = 0 then 0 else π id) := by
  -- A number of the new table that has the name is the image of one that had it.
  have hold : ∀ u : Nat, 1 ≤ u → new.name? u = some name →
      ∃ t, 1 ≤ t ∧ π t = u ∧ old.name? t = some name := by
    intro u hu hnew
    by_cases himage : ∃ t, 1 ≤ t ∧ π t = u
    · obtain ⟨t, ht, rfl⟩ := himage
      exact ⟨t, ht, rfl, (hname t ht).symm.trans hnew⟩
    · rw [hnone u hu fun t ht heq => himage ⟨t, ht, heq⟩] at hnew
      cases hnew
  rcases h with ⟨rfl, habsent⟩ | hleast
  · refine Or.inl ⟨rfl, fun u hu hnew => ?_⟩
    obtain ⟨t, ht, -, hfound⟩ := hold u hu hnew
    exact habsent t ht hfound
  · obtain ⟨⟨hid, hfound⟩, -⟩ := hleast
    rw [if_neg (by omega)]
    refine Or.inr ⟨⟨hpos id hid, (hname id hid).trans hfound⟩, ?_⟩
    rintro u ⟨hu, hnew⟩
    obtain ⟨t, ht, rfl, hfound'⟩ := hold u hu hnew
    exact Nat.le_of_eq (congrArg π (honce name id t hid ht hfound hfound'))

namespace Renumbering

variable {π : Nat → Nat} {v w : Vocabulary}

theorem tokenType_eq (h : Renumbering π v w) (literal : String) :
    w.tokenType literal =
      if v.tokenType literal = 0 then 0 else π (v.tokenType literal) :=
  (w.foundAt_tokenType literal).unique
    (NameTable.foundAt_renumbered h.literals_once h.pos h.literalName?_eq
      (fun u hu hout => (h.nameless u hu hout).1) (v.foundAt_tokenType literal))

theorem symbolType_eq (h : Renumbering π v w) (symbol : String) :
    w.symbolType symbol = if v.symbolType symbol = 0 then 0 else π (v.symbolType symbol) :=
  (w.foundAt_symbolType symbol).unique
    (NameTable.foundAt_renumbered h.symbols_once h.pos h.symbolName?_eq
      (fun u hu hout => (h.nameless u hu hout).2) (v.foundAt_symbolType symbol))

theorem sameLiterals (h : Renumbering π v w) : v.SameLiterals w := by
  intro literal
  rw [Vocabulary.invalidType, h.tokenType_eq]
  split
  · next hzero => exact iff_of_true hzero rfl
  · next hpos =>
      have := h.pos _ (Nat.pos_of_ne_zero hpos)
      exact iff_of_false hpos (by omega)

end Renumbering

/-- A token type that has a name to be shown by. -/
def Vocabulary.Named (vocabulary : Vocabulary) (type : Nat) : Prop :=
  1 ≤ type ∧ ((∃ symbol, vocabulary.symbolName? type = some symbol) ∨
    ∃ literal, vocabulary.literalName? type = some literal ∧ literal ≠ "")

/-- The number of a type that has a name is not shown. -/
theorem Vocabulary.tokenName_congr {v w : Vocabulary} {s t : Nat} (h : v.Named s)
    (hliteral : w.literalName? t = v.literalName? s)
    (hsymbol : w.symbolName? t = v.symbolName? s) : v.tokenName s = w.tokenName t := by
  rw [tokenName, tokenName, hsymbol, displayName, displayName, hliteral, hsymbol]
  rcases h.2 with ⟨symbol, hs⟩ | ⟨literal, hl, hne⟩
  · rw [hs]
    simp only
    split
    · next himplicit =>
        have hne : symbol ≠ "" := by
          rintro rfl
          cases himplicit
        simp [Option.filter, hne]
    · rfl
  · simp [hl, Option.filter, hne]

theorem Renumbering.typesAlike {π : Nat → Nat} {v w : Vocabulary} (h : Renumbering π v w)
    {type : Nat} (hnamed : v.Named type) : v.TypesAlike w type (π type) where
  literal literal hliteral := by
    have hne : v.tokenType literal ≠ 0 := hliteral
    rw [h.tokenType_eq, if_neg hne, Int.ofNat_inj, Int.ofNat_inj]
    exact ⟨congrArg π, h.injective _ _ hnamed.1 (Nat.pos_of_ne_zero hne)⟩
  name := Vocabulary.tokenName_congr hnamed (h.literalName?_eq type hnamed.1)
    (h.symbolName?_eq type hnamed.1)

/-! ## Tokens -/

/-- The types that two vocabularies find for one text or symbol, or their common fault. -/
inductive FoundAlike (π : Nat → Nat) (v : Vocabulary) :
    Except Fault Nat → Except Fault Nat → Prop where
  | fault (fault : Fault) : FoundAlike π v (.error fault) (.error fault)
  | named {type : Nat} (h : v.Named type) : FoundAlike π v (.ok type) (.ok (π type))

/-- Each text and symbol gives tokens that look the same, or the same fault. -/
def Vocabulary.SameTokens (v w : Vocabulary) : Prop :=
  ∀ text symbol,
    (∃ fault, v.token text symbol = .error fault ∧ w.token text symbol = .error fault) ∨
      ∃ s t, v.TypesAlike w s t ∧ v.token text symbol = .ok ⟨s, text⟩ ∧
        w.token text symbol = .ok ⟨t, text⟩

namespace Renumbering

variable {π : Nat → Nat} {v w : Vocabulary}

theorem requireSymbol_alike (h : Renumbering π v w) (symbol : String) :
    FoundAlike π v (v.requireSymbol symbol) (w.requireSymbol symbol) := by
  rw [Vocabulary.requireSymbol, Vocabulary.requireSymbol, h.symbolType_eq]
  split
  · next hzero =>
      rw [hzero]
      exact .fault _
  · next hpos =>
      have hpos' := h.pos _ (Nat.pos_of_ne_zero hpos)
      have hleast := (v.foundAt_symbolType symbol).isLeast hpos
      rw [if_neg hpos]
      split
      · next hzero => omega
      · exact .named ⟨hleast.1.1, Or.inl ⟨symbol, hleast.1.2⟩⟩

theorem typeOfText_alike (h : Renumbering π v w) (text : String) :
    FoundAlike π v (v.typeOfText text) (w.typeOfText text) := by
  rw [Vocabulary.typeOfText, Vocabulary.typeOfText, h.tokenType_eq]
  split
  · next hzero =>
      rw [hzero]
      simp only [if_true]
      cases Lexeme.ofText? text with
      | none => exact .fault _
      | some form => exact h.requireSymbol_alike form.symbol
  · next hpos =>
      have hpos' := h.pos _ (Nat.pos_of_ne_zero hpos)
      have hleast := (v.foundAt_tokenType (Vocabulary.inQuotes text)).isLeast hpos
      have hne : Vocabulary.inQuotes text ≠ "" := by simp [Vocabulary.inQuotes]
      rw [if_neg hpos]
      split
      · next hzero => omega
      · exact .named ⟨hleast.1.1, Or.inr ⟨_, hleast.1.2, hne⟩⟩

theorem sameTokens (h : Renumbering π v w) : v.SameTokens w := by
  have hfound : ∀ text symbol, ∃ x y, FoundAlike π v x y ∧
      v.token text symbol = x.map (fun type => ⟨(type : Int), text⟩) ∧
      w.token text symbol = y.map (fun type => ⟨(type : Int), text⟩) := by
    intro text symbol
    rw [Vocabulary.token, Vocabulary.token]
    cases symbol.filter (· ≠ "") with
    | none => exact ⟨_, _, h.typeOfText_alike text, rfl, rfl⟩
    | some symbol => exact ⟨_, _, h.requireSymbol_alike symbol, rfl, rfl⟩
  intro text symbol
  obtain ⟨x, y, halike, hv, hw⟩ := hfound text symbol
  cases halike with
  | fault fault => exact Or.inl ⟨fault, hv, hw⟩
  | named hnamed => exact Or.inr ⟨_, _, h.typesAlike hnamed, hv, hw⟩

end Renumbering

/-! ## Building -/

/-- Forests that look the same, with one outcome. -/
def BuiltAlike (v w : Vocabulary) {α : Type} (x y : Forest × Except Fault α) : Prop :=
  ∃ f g outcome, x = (f, outcome) ∧ y = (g, outcome) ∧ Forest.Alike v w f g

namespace Forest.Alike

variable {v w : Vocabulary} {f g : Forest}

theorem add {a b : Label} (h : Alike v w f g) (hlabel : Label.Alike v w a b)
    (parent : Option NodeId) : Alike v w (f.add a parent).1 (g.add b parent).1 := by
  intro n
  rw [node?_add, node?_add, h.size_eq]
  split
  · exact .some ⟨hlabel, rfl, rfl⟩
  · exact h n

theorem modify {change : Node → Node} (h : Alike v w f g)
    (hchange : ∀ a b, Node.Alike v w a b → Node.Alike v w (change a) (change b)) (m : NodeId) :
    Alike v w (f.modify m change) (g.modify m change) := by
  intro n
  rw [node?_modify, node?_modify]
  split
  · rcases h.node?_cases n with ⟨hf, hg⟩ | ⟨a, b, hf, hg, hnode⟩ <;> rw [hf, hg]
    · exact .none
    · exact .some (hchange a b hnode)
  · exact h n

theorem appendChild (h : Alike v w f g) (parent child : NodeId) :
    Alike v w (f.appendChild parent child) (g.appendChild parent child) := by
  rw [Forest.appendChild, Forest.appendChild]
  refine h.modify (fun a b hnode => ?_) parent
  exact ⟨hnode.label, congrArg (· ++ [child]) hnode.children, hnode.parent⟩

theorem adopt (h : Alike v w f g) (parent child : NodeId) :
    Alike v w (f.adopt parent child) (g.adopt parent child) := by
  have hset : Alike v w (f.setParent child parent) (g.setParent child parent) := by
    rw [setParent, setParent]
    refine h.modify (fun a b hnode => ?_) child
    exact ⟨hnode.label, hnode.children, rfl⟩
  exact hset.appendChild parent child

theorem addTerminal {s t : Int} (h : Alike v w f g) (htype : v.TypesAlike w s t)
    (parent : NodeId) (text : String) :
    Alike v w (f.addTerminal parent ⟨s, text⟩).1 (g.addTerminal parent ⟨t, text⟩).1 := by
  simp only [Forest.addTerminal, add_snd, h.size_eq]
  exact (h.add (.token text false htype) (some parent)).appendChild parent g.size

variable (htokens : v.SameTokens w)
include htokens

theorem attach (h : Alike v w f g) (parent : NodeId) (part : Part) :
    BuiltAlike v w (f.attach v parent part) (g.attach w parent part) := by
  cases part with
  | text text =>
      rw [Forest.attach, Forest.attach]
      rcases htokens text none with ⟨fault, hv, hw⟩ | ⟨s, t, htype, hv, hw⟩ <;> rw [hv, hw]
      · exact ⟨_, _, _, rfl, rfl, h⟩
      · exact ⟨_, _, _, rfl, rfl, h.addTerminal htype parent text⟩
  | node child =>
      cases child with
      | none => exact ⟨_, _, _, rfl, rfl, h⟩
      | some child => exact ⟨_, _, _, rfl, rfl, h.adopt parent child⟩

theorem attachAll (h : Alike v w f g) (parent : NodeId) (parts : List Part) :
    BuiltAlike v w (f.attachAll v parent parts) (g.attachAll w parent parts) := by
  induction parts generalizing f g with
  | nil => exact ⟨_, _, _, rfl, rfl, h⟩
  | cons part rest ih =>
      obtain ⟨f', g', outcome, hf, hg, h'⟩ := h.attach htokens parent part
      rw [Forest.attachAll, Forest.attachAll, hf, hg]
      cases outcome with
      | ok => exact ih h'
      | error fault => exact ⟨_, _, _, rfl, rfl, h'⟩

theorem growLabelled (h : Alike v w f g) (label : RuleLabel) (parts : List Part) :
    BuiltAlike v w (f.growLabelled v label parts) (g.growLabelled w label parts) := by
  have hroot := h.add (.rule rfl rfl : Label.Alike v w (.rule label) (.rule label)) none
  obtain ⟨f', g', outcome, hf, hg, h'⟩ := hroot.attachAll htokens g.size parts
  simp only [Forest.growLabelled, add_snd, h.size_eq, hf, hg]
  cases outcome with
  | ok => exact ⟨_, _, _, rfl, rfl, h'⟩
  | error fault => exact ⟨_, _, _, rfl, rfl, h'⟩

theorem grow (h : Alike v w f g) (kind : Kind) (parts : List Part) :
    BuiltAlike v w (f.grow v kind parts) (g.grow w kind parts) := by
  rw [Forest.grow, Forest.grow]
  split
  · exact h.growLabelled htokens _ parts
  · exact ⟨_, _, _, rfl, rfl, h⟩

end Forest.Alike

/-! ## Planting -/

mutual

/-- Whether no token of a sketch has a number for its type. -/
def Sketch.namesTypes : Sketch → Bool
  | .rule _ children | .labelled _ children => namesTypesAll children
  | .token _ (.exactly _) _ => false
  | .text _ | .token _ _ _ | .existing _ => true

/-- Whether no token of some sketches has a number for its type. -/
def Sketch.namesTypesAll : List Sketch → Bool
  | [] => true
  | sketch :: rest => sketch.namesTypes && namesTypesAll rest

end

theorem BuiltAlike.asPart {v w : Vocabulary} {x y : Forest × Except Fault NodeId}
    (h : BuiltAlike v w x y) : BuiltAlike v w (Forest.asPart x) (Forest.asPart y) := by
  obtain ⟨f, g, outcome, rfl, rfl, halike⟩ := h
  cases outcome <;> exact ⟨_, _, _, rfl, rfl, halike⟩

/-- A token whose type is not given by its number. -/
theorem Forest.Alike.plant_token {v w : Vocabulary} {f g : Forest} (htokens : v.SameTokens w)
    (h : Alike v w f g) (text : String) (symbol : Option String) {choice : TypeChoice}
    (hchoice : ∀ vocabulary : Vocabulary,
      vocabulary.chosenToken text choice = vocabulary.token text symbol) (erroneous : Bool) :
    BuiltAlike v w (f.plant v (.token text choice erroneous))
      (g.plant w (.token text choice erroneous)) := by
  rw [Forest.plant, Forest.plant, hchoice, hchoice]
  rcases htokens text symbol with ⟨fault, hv, hw⟩ | ⟨s, t, htype, hv, hw⟩ <;> rw [hv, hw]
  · exact ⟨_, _, _, rfl, rfl, h⟩
  · refine ⟨_, _, _, rfl, ?_, h.add (.token text erroneous htype) none⟩
    simp only [add_snd, h.size_eq]

mutual

/-- Planting one sketch in forests that look the same. -/
theorem Forest.Alike.plant {v w : Vocabulary} {f g : Forest} (htokens : v.SameTokens w)
    (h : Alike v w f g) :
    ∀ sketch : Sketch, sketch.namesTypes → BuiltAlike v w (f.plant v sketch) (g.plant w sketch)
  | .text _, _ => ⟨_, _, _, rfl, rfl, h⟩
  | .existing _, _ => ⟨_, _, _, rfl, rfl, h⟩
  | .token text .byText erroneous, _ => h.plant_token htokens text none (fun _ => rfl) erroneous
  | .token text (.bySymbol symbol) erroneous, _ =>
      h.plant_token htokens text (some symbol) (fun _ => rfl) erroneous
  | .rule kind children, hnames => by
      obtain ⟨f', g', outcome, hf, hg, h'⟩ := h.plantAll htokens children hnames
      rw [Forest.plant, Forest.plant, hf, hg]
      cases outcome with
      | ok parts => exact (h'.grow htokens kind parts).asPart
      | error fault => exact ⟨_, _, _, rfl, rfl, h'⟩
  | .labelled label children, hnames => by
      obtain ⟨f', g', outcome, hf, hg, h'⟩ := h.plantAll htokens children hnames
      rw [Forest.plant, Forest.plant, hf, hg]
      cases outcome with
      | ok parts => exact (h'.growLabelled htokens label parts).asPart
      | error fault => exact ⟨_, _, _, rfl, rfl, h'⟩

theorem Forest.Alike.plantAll {v w : Vocabulary} {f g : Forest} (htokens : v.SameTokens w)
    (h : Alike v w f g) :
    ∀ sketches : List Sketch, Sketch.namesTypesAll sketches →
      BuiltAlike v w (f.plantAll v sketches) (g.plantAll w sketches)
  | [], _ => ⟨_, _, _, rfl, rfl, h⟩
  | sketch :: rest, hnames => by
      obtain ⟨hfirst, hrest⟩ := Bool.and_eq_true_iff.mp hnames
      obtain ⟨f', g', outcome, hf, hg, h'⟩ := h.plant htokens sketch hfirst
      rw [Forest.plantAll, Forest.plantAll, hf, hg]
      cases outcome with
      | error fault => exact ⟨_, _, _, rfl, rfl, h'⟩
      | ok part =>
          obtain ⟨f'', g'', outcome, hf, hg, h''⟩ := h'.plantAll htokens rest hrest
          simp only [hf, hg]
          cases outcome <;> exact ⟨_, _, _, rfl, rfl, h''⟩

end

/-! ## Answers -/

/-- Forests with the same nodes, links, kinds and texts. -/
structure Forest.SameShape (f g : Forest) : Prop where
  size : f.size = g.size
  children : ∀ n, f.children n = g.children n
  parent? : ∀ n, f.parent? n = g.parent? n
  kind : ∀ n, f.kind n = g.kind n
  text : ∀ n, f.text n = g.text n

/-- Forests that answer alike to all that is asked with a vocabulary, each with its own:
the same value, fault and events. -/
structure Forest.SameAnswers (v w : Vocabulary) (f g : Forest) : Prop where
  findTerminal : ∀ node literal, f.findTerminal v node literal = g.findTerminal w node literal
  openBrace : ∀ node, f.openBrace v node = g.openBrace w node
  isTernary : ∀ node, f.isTernary v node = g.isTernary w node
  elseBranch : ∀ node, f.elseBranch v node = g.elseBranch w node
  plainElse : ∀ n, f.plainElse v n = g.plainElse w n
  elseClause : ∀ n, f.elseClause v n = g.elseClause w n
  isElseIf : ∀ n, f.isElseIf v n = g.isElseIf w n
  mutability : ∀ entry, f.mutability v entry = g.mutability w entry
  isPayable : ∀ entries, f.isPayable v entries = g.isPayable w entries
  isReadOnly : ∀ entries, f.isReadOnly v entries = g.isReadOnly w entries
  visibility : ∀ modifiers, f.visibility v modifiers = g.visibility w modifiers
  hasNoVisibility : ∀ modifiers, f.hasNoVisibility v modifiers = g.hasNoVisibility w modifiers
  isOpenToCalls : ∀ modifiers, f.isOpenToCalls v modifiers = g.isOpenToCalls w modifiers
  describe : ∀ node, f.describe v node = g.describe w node
  document : ∀ n, f.document v n = g.document w n
  dump : ∀ node indent, f.ask v node (.dump indent) = g.ask w node (.dump indent)

namespace Forest.Alike

variable {v w : Vocabulary} {f g : Forest}

theorem sameShape (h : Alike v w f g) : SameShape f g where
  size := h.size_eq
  children := congrFun h.children_eq
  parent? := congrFun h.parent?_eq
  kind := congrFun h.kind_eq
  text := congrFun h.text_eq

theorem sameAnswers (h : Alike v w f g) (hliterals : v.SameLiterals w) :
    SameAnswers v w f g where
  findTerminal node := congrFun (congrFun (h.findTerminal_eq hliterals) node)
  openBrace := congrFun (h.openBrace_eq hliterals)
  isTernary := congrFun (h.isTernary_eq hliterals)
  elseBranch := congrFun (h.elseBranch_eq hliterals)
  plainElse := congrFun (h.plainElse_eq hliterals)
  elseClause := congrFun (h.elseClause_eq hliterals)
  isElseIf := congrFun (h.isElseIf_eq hliterals)
  mutability := congrFun (h.mutability_eq hliterals)
  isPayable := congrFun (h.isPayable_eq hliterals)
  isReadOnly := congrFun (h.isReadOnly_eq hliterals)
  visibility := congrFun (h.visibility_eq hliterals)
  hasNoVisibility := congrFun (h.hasNoVisibility_eq hliterals)
  isOpenToCalls := congrFun (h.isOpenToCalls_eq hliterals)
  describe := congrFun (h.describe_eq hliterals)
  document := congrFun h.document_eq
  dump node indent := by rw [ask, ask, h.readDocument_eq]

end Forest.Alike

/-- Renumbering the token types of a vocabulary is invisible: what a sketch is made into
has the same nodes, or fails with the same fault, and answers alike. -/
theorem Renumbering.invisible {π : Nat → Nat} {v w : Vocabulary} (h : Renumbering π v w)
    {sketch : Sketch} (hnames : sketch.namesTypes) :
    let built := Forest.plant v {} sketch
    let rebuilt := Forest.plant w {} sketch
    built.2 = rebuilt.2 ∧ built.1.SameShape rebuilt.1 ∧
      Forest.SameAnswers v w built.1 rebuilt.1 := by
  have hempty : Forest.Alike v w {} {} := fun n => by
    rw [(Forest.node?_eq_none_iff {}).mpr (Nat.zero_le n)]
    exact .none
  obtain ⟨f, g, outcome, hf, hg, halike⟩ := hempty.plant h.sameTokens sketch hnames
  rw [hf, hg]
  exact ⟨rfl, halike.sameShape, halike.sameAnswers h.sameLiterals⟩

/-- The keyword was first and comes last, and the renumbered tables have a hole at three. -/
theorem Renumbering.invisible_else :
    let π := fun t => if t = 1 then 4 else if t = 2 then 1 else if t = 3 then 2 else t + 1
    let v := Vocabulary.ofNames [none, some "'else'", some "'?'"]
      [none, some "T__0", none, some "Identifier"]
    let w := Vocabulary.ofNames [none, some "'?'", none, none, some "'else'"]
      [none, none, some "Identifier", none, some "T__0"]
    let sketch := Sketch.rule .ifStatement
      [.text "else", .rule .statement [.text "x", .token "?" (.bySymbol "Identifier") true]]
    v.tokenType "'else'" = 1 ∧ w.tokenType "'else'" = 4 ∧ Renumbering π v w ∧ sketch.namesTypes ∧
      (Forest.plant v {} sketch).2 = (Forest.plant w {} sketch).2 ∧
      Forest.SameShape (Forest.plant v {} sketch).1 (Forest.plant w {} sketch).1 ∧
      Forest.SameAnswers v w (Forest.plant v {} sketch).1 (Forest.plant w {} sketch).1 := by
  intro π v w sketch
  have hrenumbered : Renumbering π v w :=
    { literals_once := by decide
      symbols_once := by decide
      pos := fun | 1, _ | 2, _ | 3, _ => by decide
                 | t + 4, _ => Nat.succ_pos _
      injective := fun s t _ _ heq => by grind
      literalName?_eq := fun | 1, _ | 2, _ | 3, _ => rfl
                             | t + 4, _ => rfl
      symbolName?_eq := fun | 1, _ | 2, _ | 3, _ => rfl
                            | t + 4, _ => rfl
      nameless := fun
        | 1, _, hout => absurd rfl (hout 2 (by decide))
        | 2, _, hout => absurd rfl (hout 3 (by decide))
        | 3, _, _ => ⟨rfl, rfl⟩
        | 4, _, hout => absurd rfl (hout 1 (by decide))
        | u + 5, _, _ => ⟨rfl, rfl⟩ }
  exact ⟨by rw [Vocabulary.tokenType_eq_find?]; rfl, by rw [Vocabulary.tokenType_eq_find?]; rfl,
    hrenumbered, rfl, hrenumbered.invisible rfl⟩

end SolidityLint
