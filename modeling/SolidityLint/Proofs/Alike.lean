import SolidityLint.Forest.Lemmas
import SolidityLint.Query.Question

/-!
# What queries can tell apart

A query sees less of a forest than the forest holds. Of a rule node it sees the kind
and the name of the rule, of a terminal the text and, through the vocabulary, whether
its type is the one of a literal and by which name it is shown. The types themselves
stay out of sight.

Two forests, each with its vocabulary, are `Alike` if they agree node by node on what
can be seen. Nodes correspond by their number. Then every operation that looks at a
forest is the same function on both, and the lemmas below say so of one operation
after the other, from the children of a node up to the summary of a function. Each
needs the ones before it only. Where a vocabulary is asked, the whole traced value is
the same: the value, or the fault, and the events on the way.
-/

namespace SolidityLint

/-- The vocabularies have the same literals, perhaps at different types. -/
def Vocabulary.SameLiterals (v w : Vocabulary) : Prop :=
  ∀ literal, v.tokenType literal = Vocabulary.invalidType ↔
    w.tokenType literal = Vocabulary.invalidType

/-- Types that no literal tells apart and that are shown by the same name. -/
structure Vocabulary.TypesAlike (v w : Vocabulary) (s t : Int) : Prop where
  literal : ∀ literal, v.tokenType literal ≠ Vocabulary.invalidType →
    (s = v.tokenType literal ↔ t = w.tokenType literal)
  name : v.tokenName s = w.tokenName t

/-- Labels that look the same. -/
inductive Label.Alike (v w : Vocabulary) : Label → Label → Prop where
  | rule {a b : RuleLabel} (kind : a.kind = b.kind) (name : a.ruleName = b.ruleName) :
      Alike v w (.rule a) (.rule b)
  | token {s t : Int} (text : String) (erroneous : Bool) (type : v.TypesAlike w s t) :
      Alike v w (.token ⟨s, text⟩ erroneous) (.token ⟨t, text⟩ erroneous)
  | gap : Alike v w .gap .gap

/-- Nodes that look the same and have the same links. -/
structure Node.Alike (v w : Vocabulary) (a b : Node) : Prop where
  label : Label.Alike v w a.label b.label
  children : a.children = b.children
  parent : a.parent = b.parent

/-- Forests whose nodes look the same, number by number. -/
def Forest.Alike (v w : Vocabulary) (f g : Forest) : Prop :=
  ∀ n, Option.Rel (Node.Alike v w) (f.node? n) (g.node? n)

theorem option_rel_cases {α β : Type} {r : α → β → Prop} {x : Option α} {y : Option β}
    (h : Option.Rel r x y) : (x = none ∧ y = none) ∨ ∃ a b, x = some a ∧ y = some b ∧ r a b := by
  cases h with
  | some hr => exact Or.inr ⟨_, _, rfl, rfl, hr⟩
  | none => exact Or.inl ⟨rfl, rfl⟩

namespace Forest.Alike

variable {v w : Vocabulary} {f g : Forest}

/-! ## Views -/

theorem node?_cases (h : Alike v w f g) (n : NodeId) :
    (f.node? n = none ∧ g.node? n = none) ∨
      ∃ a b, f.node? n = some a ∧ g.node? n = some b ∧ Node.Alike v w a b :=
  option_rel_cases (h n)

theorem label?_cases (h : Alike v w f g) (n : NodeId) :
    (f.label? n = none ∧ g.label? n = none) ∨
      ∃ a b, f.label? n = some a ∧ g.label? n = some b ∧ Label.Alike v w a b := by
  rw [label?, label?]
  rcases h.node?_cases n with ⟨hf, hg⟩ | ⟨a, b, hf, hg, hnode⟩ <;> rw [hf, hg]
  · exact Or.inl ⟨rfl, rfl⟩
  · exact Or.inr ⟨_, _, rfl, rfl, hnode.label⟩

theorem size_eq (h : Alike v w f g) : f.size = g.size := by
  have hiff : ∀ n, f.size ≤ n ↔ g.size ≤ n := by
    intro n
    rw [← node?_eq_none_iff, ← node?_eq_none_iff]
    rcases h.node?_cases n with ⟨hf, hg⟩ | ⟨a, b, hf, hg, -⟩ <;> rw [hf, hg]
    exact iff_of_false (fun h => nomatch h) (fun h => nomatch h)
  exact Nat.le_antisymm ((hiff _).mpr (Nat.le_refl _)) ((hiff _).mp (Nat.le_refl _))

theorem children_eq (h : Alike v w f g) : f.children = g.children := by
  funext n
  rw [children, children]
  rcases h.node?_cases n with ⟨hf, hg⟩ | ⟨a, b, hf, hg, hnode⟩ <;> rw [hf, hg]
  exact hnode.children

theorem parent?_eq (h : Alike v w f g) : f.parent? = g.parent? := by
  funext n
  rw [parent?, parent?]
  rcases h.node?_cases n with ⟨hf, hg⟩ | ⟨a, b, hf, hg, hnode⟩ <;> rw [hf, hg]
  exact hnode.parent

theorem isRule_eq (h : Alike v w f g) : f.isRule = g.isRule := by
  funext n
  rw [isRule, isRule, ruleLabel?, ruleLabel?]
  rcases h.label?_cases n with ⟨hf, hg⟩ | ⟨a, b, hf, hg, hlabel⟩ <;> rw [hf, hg]
  cases hlabel <;> rfl

theorem isTerminal_eq (h : Alike v w f g) : f.isTerminal = g.isTerminal := by
  funext n
  rw [isTerminal, isTerminal, token?, token?]
  rcases h.label?_cases n with ⟨hf, hg⟩ | ⟨a, b, hf, hg, hlabel⟩ <;> rw [hf, hg]
  cases hlabel <;> rfl

theorem kind_eq (h : Alike v w f g) : f.kind = g.kind := by
  funext n
  rw [kind, kind]
  rcases h.label?_cases n with ⟨hf, hg⟩ | ⟨a, b, hf, hg, hlabel⟩ <;> rw [hf, hg]
  cases hlabel with
  | rule hkind _ => exact hkind
  | token text erroneous _ => cases erroneous <;> rfl
  | gap => rfl

theorem occupant?_eq (h : Alike v w f g) : f.occupant? = g.occupant? := by
  funext n
  rw [occupant?, occupant?]
  rcases h.label?_cases n with ⟨hf, hg⟩ | ⟨a, b, hf, hg, hlabel⟩ <;> rw [hf, hg]
  cases hlabel <;> rfl

theorem textWithin_eq (h : Alike v w f g) : f.textWithin = g.textWithin := by
  funext depth
  induction depth with
  | zero => rfl
  | succ depth ih =>
      funext n
      rw [textWithin, textWithin, ih, h.children_eq]
      rcases h.label?_cases n with ⟨hf, hg⟩ | ⟨a, b, hf, hg, hlabel⟩ <;> rw [hf, hg]
      cases hlabel <;> rfl

theorem text_eq (h : Alike v w f g) : f.text = g.text := by
  funext n
  rw [text, text, h.textWithin_eq, h.size_eq]

theorem documentWithin_eq (h : Alike v w f g) : f.documentWithin v = g.documentWithin w := by
  funext depth
  induction depth with
  | zero => rfl
  | succ depth ih =>
      funext n
      rw [documentWithin, documentWithin, ih, h.children_eq]
      rcases h.label?_cases n with ⟨hf, hg⟩ | ⟨a, b, hf, hg, hlabel⟩ <;> rw [hf, hg]
      cases hlabel with
      | rule _ hname => simp only [hname]
      | token text erroneous htype => simp only [htype.name]
      | gap => rfl

theorem document_eq (h : Alike v w f g) : f.document v = g.document w := by
  funext n
  rw [document, document, h.documentWithin_eq, h.size_eq]

/-! ## Navigation -/

theorem kindOf_eq (h : Alike v w f g) : f.kindOf = g.kindOf := by
  funext node
  rw [kindOf, kindOf, h.kind_eq]

theorem isKind_eq (h : Alike v w f g) : f.isKind = g.isKind := by
  funext node kind
  rw [isKind, isKind, h.kind_eq]

theorem ruleChildren_eq (h : Alike v w f g) : f.ruleChildren = g.ruleChildren := by
  funext node
  rw [ruleChildren, ruleChildren, h.isRule_eq, h.children_eq]

theorem childrenOfKind_eq (h : Alike v w f g) : f.childrenOfKind = g.childrenOfKind := by
  funext node kind
  rw [childrenOfKind, childrenOfKind, h.ruleChildren_eq, h.kind_eq]

theorem firstChild?_eq (h : Alike v w f g) : f.firstChild? = g.firstChild? := by
  funext node kind
  rw [firstChild?, firstChild?, h.ruleChildren_eq, h.kind_eq]

theorem beginsWithIf_eq (h : Alike v w f g) : f.beginsWithIf = g.beginsWithIf := by
  funext n
  rw [beginsWithIf, beginsWithIf, h.isKind_eq, h.children_eq]

theorem readText_eq (h : Alike v w f g) : f.readText = g.readText := by
  funext n
  rw [readText, readText, h.text_eq]

/-! ## Texts and contracts -/

theorem isParenthesized_eq (h : Alike v w f g) : f.isParenthesized = g.isParenthesized := by
  funext node
  rw [isParenthesized, isParenthesized, h.kind_eq, h.text_eq]

theorem unwrapParentheses_eq (h : Alike v w f g) :
    f.unwrapParentheses = g.unwrapParentheses := by
  have hwrapped : f.wrappedChild? = g.wrappedChild? := by
    funext n
    rw [wrappedChild?, wrappedChild?, h.children_eq, h.text_eq]
  funext n
  rw [unwrapParentheses, unwrapParentheses, h.readText_eq, h.isParenthesized_eq, hwrapped]

theorem isComparison_eq (h : Alike v w f g) : f.isComparison = g.isComparison := by
  funext node
  rw [isComparison, isComparison, h.kind_eq, h.children_eq, h.text_eq]

theorem ancestorsWithin_eq (h : Alike v w f g) : f.ancestorsWithin = g.ancestorsWithin := by
  funext height
  induction height with
  | zero => rfl
  | succ height ih =>
      funext n
      rw [ancestorsWithin, ancestorsWithin, ih, h.parent?_eq]

theorem enclosingContract?_eq (h : Alike v w f g) :
    f.enclosingContract? = g.enclosingContract? := by
  funext n
  rw [enclosingContract?, enclosingContract?, ancestors, ancestors, h.ancestorsWithin_eq,
    h.size_eq, h.kind_eq]

theorem enclosingContract_eq (h : Alike v w f g) :
    f.enclosingContract = g.enclosingContract := by
  funext n
  rw [enclosingContract, enclosingContract, h.enclosingContract?_eq, h.readText_eq]

theorem functionName_eq (h : Alike v w f g) : f.functionName = g.functionName := by
  funext node
  rw [functionName, functionName, h.kindOf_eq, h.firstChild?_eq, h.readText_eq]

theorem isCallback_eq (h : Alike v w f g) : f.isCallback = g.isCallback := by
  funext node
  rw [isCallback, isCallback, h.isKind_eq, h.kindOf_eq, h.functionName_eq]

theorem readDocument_eq (h : Alike v w f g) : f.readDocument v = g.readDocument w := by
  funext node
  rw [readDocument, readDocument, h.document_eq]

/-! ## Literals -/

/-- A terminal has the type of a literal in both forests or in neither. -/
theorem terminalOfType?_eq (h : Alike v w f g) {literal : String}
    (hliteral : v.tokenType literal ≠ Vocabulary.invalidType) (n : NodeId) :
    f.terminalOfType? n (v.tokenType literal) = g.terminalOfType? n (w.tokenType literal) := by
  have htype : ∀ child, ((f.token? child).any (·.type == (v.tokenType literal : Int))) =
      ((g.token? child).any (·.type == (w.tokenType literal : Int))) := by
    intro child
    rw [token?, token?]
    rcases h.label?_cases child with ⟨hf, hg⟩ | ⟨a, b, hf, hg, hlabel⟩ <;> rw [hf, hg]
    · rfl
    · cases hlabel with
      | rule _ _ => rfl
      | token text erroneous htypes =>
          refine Bool.eq_iff_iff.mpr ?_
          simp only [Option.any_some, beq_iff_eq]
          exact htypes.literal literal hliteral
      | gap => rfl
  simp only [terminalOfType?, h.children_eq, htype]

variable (hliterals : v.SameLiterals w)
include hliterals

theorem findTerminal_eq (h : Alike v w f g) : f.findTerminal v = g.findTerminal w := by
  funext node literal
  rw [findTerminal, findTerminal, h.isRule_eq]
  cases node.filter g.isRule with
  | none => rfl
  | some n =>
      by_cases hliteral : v.tokenType literal = Vocabulary.invalidType
      · have hliteral' := (hliterals literal).mp hliteral
        simp only [Vocabulary.resolve, hliteral, hliteral']
        rfl
      · have hliteral' := mt (hliterals literal).mpr hliteral
        simp only [Vocabulary.resolve, if_neg hliteral, if_neg hliteral']
        refine Traced.ext ?_ rfl
        simp only [Traced.value_bind, Traced.value_pure, if_neg hliteral, if_neg hliteral']
        exact h.terminalOfType?_eq hliteral n

theorem hasTerminal_eq (h : Alike v w f g) : f.hasTerminal v = g.hasTerminal w := by
  funext node literal
  rw [hasTerminal, hasTerminal, h.findTerminal_eq hliterals]

theorem openBrace_eq (h : Alike v w f g) : f.openBrace v = g.openBrace w := by
  funext node
  rw [openBrace, openBrace, h.findTerminal_eq hliterals]

/-! ## Statements and expressions -/

theorem isTernary_eq (h : Alike v w f g) : f.isTernary v = g.isTernary w := by
  have hstated : f.statedExpression? = g.statedExpression? := by
    funext node
    simp only [statedExpression?, h.kind_eq, h.children_eq, h.firstChild?_eq]
  funext node
  rw [isTernary, isTernary, hstated, h.hasTerminal_eq hliterals]

theorem elseBranch_eq (h : Alike v w f g) : f.elseBranch v = g.elseBranch w := by
  have hafter : f.ruleAfter? = g.ruleAfter? := by
    funext mark nodes
    rw [ruleAfter?, ruleAfter?, h.isTerminal_eq, h.occupant?_eq]
  funext node
  rw [elseBranch, elseBranch, h.findTerminal_eq hliterals, hafter, h.ruleChildren_eq]

theorem plainElse_eq (h : Alike v w f g) : f.plainElse v = g.plainElse w := by
  funext n
  rw [plainElse, plainElse, h.kind_eq, h.readText_eq, h.elseBranch_eq hliterals, h.children_eq,
    h.beginsWithIf_eq]

theorem elseClause_eq (h : Alike v w f g) : f.elseClause v = g.elseClause w := by
  funext n
  rw [elseClause, elseClause, h.kind_eq, h.readText_eq, h.elseBranch_eq hliterals,
    h.beginsWithIf_eq]

theorem isElseIf_eq (h : Alike v w f g) : f.isElseIf v = g.isElseIf w := by
  funext n
  rw [isElseIf, isElseIf, h.kind_eq, h.parent?_eq, h.elseBranch_eq hliterals]

/-! ## Functions -/

theorem visibility_eq (h : Alike v w f g) : f.visibility v = g.visibility w := by
  funext modifiers
  rw [visibility, visibility, h.hasTerminal_eq hliterals]

theorem hasNoVisibility_eq (h : Alike v w f g) : f.hasNoVisibility v = g.hasNoVisibility w := by
  funext modifiers
  rw [hasNoVisibility, hasNoVisibility, h.hasTerminal_eq hliterals]

theorem isOpenToCalls_eq (h : Alike v w f g) : f.isOpenToCalls v = g.isOpenToCalls w := by
  funext modifiers
  rw [isOpenToCalls, isOpenToCalls, h.hasNoVisibility_eq hliterals, h.hasTerminal_eq hliterals]

theorem mutability_eq (h : Alike v w f g) : f.mutability v = g.mutability w := by
  funext entry
  rw [mutability, mutability, h.hasTerminal_eq hliterals]

theorem isPayable_eq (h : Alike v w f g) : f.isPayable v = g.isPayable w := by
  funext entries
  rw [isPayable, isPayable, h.hasTerminal_eq hliterals]

theorem isReadOnly_eq (h : Alike v w f g) : f.isReadOnly v = g.isReadOnly w := by
  have hsays : f.saysReadOnly v = g.saysReadOnly w := by
    funext entry
    rw [saysReadOnly, saysReadOnly, h.hasTerminal_eq hliterals]
  funext entries
  rw [isReadOnly, isReadOnly, hsays]

theorem describe_eq (h : Alike v w f g) : f.describe v = g.describe w := by
  have hmutability : f.declaredMutability v = g.declaredMutability w := by
    funext entries
    rw [declaredMutability, declaredMutability, h.isPayable_eq hliterals,
      h.isReadOnly_eq hliterals, h.mutability_eq hliterals]
  have hvisibility : f.declaredVisibility v = g.declaredVisibility w := by
    funext modifiers
    cases modifiers with
    | none => rfl
    | some list => rw [declaredVisibility, declaredVisibility, h.visibility_eq hliterals]
  funext node
  simp only [describe, modifierList?, mutabilityEntries, h.isKind_eq, h.kindOf_eq,
    h.firstChild?_eq, h.childrenOfKind_eq, hvisibility, hmutability, h.functionName_eq,
    h.isCallback_eq]

/-! ## Questions -/

/-- What looks the same is answered the same, unless the question is for the rule that a
label stands for or for the type of a token. -/
theorem ask_eq (h : Alike v w f g) (node : Option NodeId) {question : Question}
    (hindex : question ≠ .ruleIndex) (hname : question ≠ .ruleName)
    (htype : question ≠ .tokenType) : f.ask v node question = g.ask w node question := by
  cases question with
  | ruleIndex => exact absurd rfl hindex
  | ruleName => exact absurd rfl hname
  | tokenType => exact absurd rfl htype
  | text | childCount | document | dump | kind | isKind | parent =>
      simp only [ask, h.readText_eq, h.children_eq, h.readDocument_eq, h.kindOf_eq, h.isKind_eq,
        h.parent?_eq]
  | isParenthesized | isComparison | unwrapParentheses | isTernary =>
      simp only [ask, h.isParenthesized_eq, h.isComparison_eq, h.unwrapParentheses_eq,
        h.isTernary_eq hliterals]
  | enclosingContract | requiredContract =>
      simp only [ask, h.enclosingContract?_eq, h.enclosingContract_eq]
  | isElseIf | elseClause | elseBranch | plainElse =>
      simp only [ask, h.isElseIf_eq hliterals, h.elseClause_eq hliterals,
        h.elseBranch_eq hliterals, h.plainElse_eq hliterals]
  | openBrace | terminal | firstChild | childrenOfKind | modifierList | mutabilityEntries =>
      simp only [ask, h.openBrace_eq hliterals, h.findTerminal_eq hliterals, h.firstChild?_eq,
        h.childrenOfKind_eq, h.occupant?_eq, modifierList?, mutabilityEntries]
  | functionName | isCallback | describe =>
      simp only [ask, h.functionName_eq, h.isCallback_eq, h.describe_eq hliterals]
  | mutability | visibility | hasNoVisibility | isOpenToCalls =>
      simp only [ask, h.mutability_eq hliterals, h.visibility_eq hliterals,
        h.hasNoVisibility_eq hliterals, h.isOpenToCalls_eq hliterals]

end Forest.Alike

end SolidityLint
