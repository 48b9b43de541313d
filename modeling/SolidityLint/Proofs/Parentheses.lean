import SolidityLint.Proofs.MirroredTrees
import SolidityLint.Proofs.ElseClauses
import SolidityLint.Proofs.TerminalsByText
import SolidityLint.Query.Expression

/-!
# Parentheses around expressions

Whether an expression is in parentheses is asked twice. First its text is looked at, which is
the text of the whole tree, and then its children. The first answer says little about the
second: the text of `(a)+(b)` is in parentheses too, and a parenthesis may come from deep below
the first child. It is the other direction that holds. An expression that wraps a node has a
text in parentheses, so the look at the text refuses nothing that the look at the children
would accept, and unwrapping succeeds exactly where a node is wrapped (`Wraps`). What the text
does decide is the complaint about all other nodes.

All nodes have a text here, because they are trees, and so the answers are the only ones. Of
what is wrapped nothing is asked, and wrapping changes nothing about the nodes that were there.
So a node comes out again after as many steps as it went in, however often that was.
-/

namespace SolidityLint

open Checked

namespace Forest

variable {forest : Forest}

/-! ## Texts of nodes -/

theorem textWithin_mono {depth bound : Nat} {n : NodeId} {text : String} (hle : depth ≤ bound)
    (h : forest.textWithin depth n = .ok text) : forest.textWithin bound n = .ok text := by
  rw [textWithin_eq_foldWithin] at h ⊢
  exact (Extends.refl forest).foldWithin_mono hle h

theorem exists_size_eq {n : NodeId} {label : Label} (h : forest.label? n = some label) :
    ∃ depth, forest.size = depth + 1 :=
  Nat.exists_eq_add_one.mpr (Nat.lt_of_le_of_lt (Nat.zero_le n) (lt_size_of_label? h))

theorem text_of_token {n : NodeId} {token : Token} {erroneous : Bool}
    (h : forest.label? n = some (.token token erroneous)) : forest.text n = .ok token.text := by
  obtain ⟨depth, hdepth⟩ := exists_size_eq h
  rw [Forest.text, hdepth, textWithin, h]

/-- The text of a rule node is made of the texts of its children. -/
theorem exists_texts_of_text {n : NodeId} {text : String} (hrule : forest.isRule n = true)
    (h : forest.text n = .ok text) :
    ∃ texts, List.Forall₂ (fun c text => forest.text c = .ok text) (forest.children n) texts ∧
      text = String.join texts := by
  obtain ⟨label, hlabel⟩ := isRule_iff.mp hrule
  obtain ⟨depth, hdepth⟩ := exists_size_eq hlabel
  rw [Forest.text, hdepth, textWithin, hlabel] at h
  cases htexts : (forest.children n).mapM (forest.textWithin depth) with
  | error fault =>
      simp only [htexts] at h
      cases h
  | ok texts =>
      simp only [htexts] at h
      cases h
      refine ⟨texts, (mapM_eq_ok_iff.mp htexts).imp fun c text hc => ?_, rfl⟩
      exact textWithin_mono (by omega) hc

/-! ## Unwrapping -/

/-- An expression of three children, of which the outer two are parentheses. -/
structure Wraps (forest : Forest) (n inner : NodeId) : Prop where
  kind_eq : forest.kind n = .expression
  children_eq : ∃ opening closing, forest.children n = [opening, inner, closing] ∧
    forest.text opening = .ok "(" ∧ forest.text closing = .ok ")"

theorem isRule_of_expression {n : NodeId} (h : forest.kind n = .expression) :
    forest.isRule n = true :=
  isRule_of_kind (by rw [h]; rfl)

section Wraps

variable {n inner : NodeId}

theorem Wraps.text_eq {text : String} (h : forest.Wraps n inner)
    (htext : forest.text n = .ok text) :
    ∃ within, forest.text inner = .ok within ∧ text = "(" ++ within ++ ")" := by
  obtain ⟨opening, closing, hchildren, hopening, hclosing⟩ := h.children_eq
  obtain ⟨texts, htexts, rfl⟩ := exists_texts_of_text (isRule_of_expression h.kind_eq) htext
  rw [hchildren] at htexts
  rcases htexts with _ | ⟨hfirst, _ | ⟨hinner, _ | ⟨hlast, ⟨⟩⟩⟩⟩
  cases hopening.symm.trans hfirst
  cases hclosing.symm.trans hlast
  exact ⟨_, hinner, by simp [String.join]⟩

theorem Wraps.unique {other : NodeId} (h : forest.Wraps n inner) (h' : forest.Wraps n other) :
    inner = other := by
  obtain ⟨_, _, hchildren, -⟩ := h.children_eq
  obtain ⟨_, _, hchildren', -⟩ := h'.children_eq
  cases hchildren.symm.trans hchildren'
  rfl

theorem Wraps.tree (h : forest.Wraps n inner) (htree : forest.Tree n) : forest.Tree inner := by
  obtain ⟨_, _, hchildren, -⟩ := h.children_eq
  refine htree.of_inTree (.single ⟨isRule_of_expression h.kind_eq, ?_⟩)
  rw [hchildren]
  simp

theorem Wraps.mono {before after : Forest} (hextends : Extends before after)
    (h : before.Wraps n inner) : after.Wraps n inner := by
  have hn := lt_size_of_isRule (isRule_of_expression h.kind_eq)
  obtain ⟨opening, closing, hchildren, hopening, hclosing⟩ := h.children_eq
  refine ⟨(hextends.kind_eq hn).trans h.kind_eq, opening, closing, ?_, ?_, ?_⟩
  · rw [hextends.children_eq n hn, hchildren]
  · rw [hextends.text_eq ⟨_, hopening⟩, hopening]
  · rw [hextends.text_eq ⟨_, hclosing⟩, hclosing]

end Wraps

theorem inParentheses_append (text : String) : inParentheses ("(" ++ text ++ ")") = true := by
  have hlist : ("(" ++ text ++ ")").toList = ('(' :: text.toList) ++ [')'] := by simp
  rw [inParentheses, hlist, List.getLast?_concat]
  rfl

section Text

variable {n : NodeId} {text : String} (htext : forest.text n = .ok text)

include htext

theorem isParenthesized_eq_ok :
    forest.isParenthesized (some n) =
      .ok (forest.kind n == .expression && inParentheses text) := by
  cases hkind : forest.kind n == .expression with
  | true =>
      simp only [isParenthesized, Option.filter, hkind, if_true, htext, Bool.true_and]
      rfl
  | false =>
      simp only [isParenthesized, Option.filter, hkind, Bool.false_and]
      rfl

theorem wrappedChild?_cases (hkind : forest.kind n = .expression) :
    (∃ inner, forest.Wraps n inner ∧ forest.wrappedChild? n = .ok (some inner)) ∨
      (∀ inner, ¬ forest.Wraps n inner) ∧ forest.wrappedChild? n = .ok none := by
  obtain ⟨texts, htexts, -⟩ := exists_texts_of_text (isRule_of_expression hkind) htext
  rw [wrappedChild?]
  split
  · next opening child closing hchildren =>
      rw [hchildren] at htexts
      obtain ⟨before, _, hopening, htexts, -⟩ := List.forall₂_cons_left_iff.mp htexts
      obtain ⟨_, _, -, htexts, -⟩ := List.forall₂_cons_left_iff.mp htexts
      obtain ⟨after, _, hclosing, -, -⟩ := List.forall₂_cons_left_iff.mp htexts
      simp only [hopening, hclosing]
      by_cases hshape : before = "(" ∧ after = ")"
      · obtain ⟨rfl, rfl⟩ := hshape
        exact .inl ⟨child, ⟨hkind, opening, closing, hchildren, hopening, hclosing⟩, rfl⟩
      · refine .inr ⟨fun inner hwraps => hshape ?_, congrArg Except.ok (if_neg hshape)⟩
        obtain ⟨_, _, hchildren', hopening', hclosing'⟩ := hwraps.children_eq
        cases hchildren.symm.trans hchildren'
        cases hopening.symm.trans hopening'
        cases hclosing.symm.trans hclosing'
        exact ⟨rfl, rfl⟩
  · next hno =>
      refine .inr ⟨fun inner hwraps => ?_, rfl⟩
      obtain ⟨_, _, hchildren, -⟩ := hwraps.children_eq
      exact hno _ _ _ hchildren

/-- All that unwrapping can do: there is an inner node, the text is not in parentheses, or it is
and the children do not have the shape. -/
theorem unwrapParentheses_cases :
    (∃ inner, forest.Wraps n inner ∧ (forest.unwrapParentheses n).outcome = .ok inner) ∨
    (∀ inner, ¬ forest.Wraps n inner) ∧
      (forest.isParenthesized (some n) = .ok false ∧
          (forest.unwrapParentheses n).outcome = .error (.precondition (.parenthesized text)) ∨
        forest.isParenthesized (some n) = .ok true ∧
          (forest.unwrapParentheses n).outcome = .error (.precondition (.wrapped text))) := by
  have hparenthesized := isParenthesized_eq_ok htext
  simp only [unwrapParentheses, readText, outcome_bind, outcome_ofExcept, htext, hparenthesized,
    Except.bind, outcome_demand]
  cases hshown : forest.kind n == .expression && inParentheses text with
  | false =>
      -- The text would be in parentheses if there were a node to unwrap.
      refine .inr ⟨fun inner hwraps => ?_, .inl ⟨rfl, rfl⟩⟩
      obtain ⟨within, -, rfl⟩ := hwraps.text_eq htext
      rw [hwraps.kind_eq, inParentheses_append] at hshown
      cases hshown
  | true =>
      have hkind : forest.kind n = .expression := beq_iff_eq.mp (Bool.and_eq_true_iff.mp hshown).1
      rcases wrappedChild?_cases htext hkind with ⟨inner, hwraps, hchild⟩ | ⟨hno, hchild⟩
      · rw [hchild]
        exact .inl ⟨inner, hwraps, rfl⟩
      · rw [hchild]
        exact .inr ⟨hno, .inr ⟨rfl, rfl⟩⟩

theorem unwrapParentheses_eq_ok_iff {inner : NodeId} :
    (forest.unwrapParentheses n).outcome = .ok inner ↔ forest.Wraps n inner := by
  rcases unwrapParentheses_cases htext with ⟨found, hwraps, houtcome⟩ | ⟨hno, hrest⟩
  · rw [houtcome, Except.ok.injEq]
    constructor
    · rintro rfl
      exact hwraps
    · exact hwraps.unique
  · refine iff_of_false (fun houtcome => ?_) (hno inner)
    rcases hrest with ⟨-, hfault⟩ | ⟨-, hfault⟩
    · cases hfault.symm.trans houtcome
    · cases hfault.symm.trans houtcome

end Text

/-! ## Wrapping -/

/-- Unwraps a node a number of times. -/
def unwrapTimes (forest : Forest) : Nat → NodeId → Checked NodeId
  | 0, n => return n
  | times + 1, n => do forest.unwrapTimes times (← forest.unwrapParentheses n)

/-- The parts of an expression in parentheses. -/
def wrappedParts (n : NodeId) : List Part := [.text "(", .node (some n), .text ")"]

/-- Wraps a node in parentheses a number of times. -/
def growWrapped (forest : Forest) (vocabulary : Vocabulary) (n : NodeId) :
    Nat → Forest × Except Fault NodeId
  | 0 => (forest, .ok n)
  | times + 1 =>
    match forest.growWrapped vocabulary n times with
    | (forest, .ok inner) => forest.grow vocabulary .expression (wrappedParts inner)
    | (forest, .error fault) => (forest, .error fault)

/-- A node with another one in a number of parentheses. -/
def WrapsTimes (forest : Forest) : Nat → NodeId → NodeId → Prop
  | 0, n, inner => n = inner
  | times + 1, n, inner => ∃ next, forest.Wraps n next ∧ forest.WrapsTimes times next inner

theorem WrapsTimes.mono {before after : Forest} (hextends : Extends before after) {inner : NodeId}
    {times : Nat} :
    ∀ {n : NodeId}, before.WrapsTimes times n inner → after.WrapsTimes times n inner := by
  induction times with
  | zero => exact fun h => h
  | succ times ih =>
      rintro n ⟨next, hwraps, hrest⟩
      exact ⟨next, hwraps.mono hextends, ih hrest⟩

theorem outcome_unwrapTimes {inner : NodeId} {times : Nat} :
    ∀ {n : NodeId}, forest.Tree n → forest.WrapsTimes times n inner →
      (forest.unwrapTimes times n).outcome = .ok inner := by
  induction times with
  | zero =>
      rintro n - rfl
      rfl
  | succ times ih =>
      rintro n htree ⟨next, hwraps, hrest⟩
      obtain ⟨text, htext⟩ := htree.text_ok
      rw [unwrapTimes, outcome_bind, (unwrapParentheses_eq_ok_iff htext).mpr hwraps]
      exact ih (hwraps.tree htree) hrest

variable {vocabulary : Vocabulary}

theorem AttachedAs.text_eq {bound n : NodeId} {text : String}
    (h : forest.AttachedAs vocabulary bound (.text text) n) : forest.text n = .ok text := by
  cases h with
  | text htoken hlabel _ => rw [text_of_token hlabel, Vocabulary.text_of_token htoken]

theorem node_mem_wrappedParts {n m : NodeId} : .node (some m) ∈ wrappedParts n ↔ m = n := by
  simp [wrappedParts]

theorem spelled_of_mem_wrappedParts (hliterals : vocabulary.Spells ["(", ")"]) {n : NodeId}
    (hn : n < forest.size) : ∀ part ∈ wrappedParts n, part.Spelled vocabulary forest := by
  simp only [wrappedParts, List.forall_mem_cons]
  exact ⟨.literal (hliterals _ (by simp)), .node hn, .literal (hliterals _ (by simp)),
    List.forall_mem_nil _⟩

theorem Grown.wraps {before after : Forest} {n : NodeId}
    (h : Grown before after vocabulary (.ofKind .expression) (wrappedParts n)) :
    after.Wraps before.size n := by
  obtain ⟨opening, _, hopening, hinside, hchildren⟩ := List.forall₂_cons_left_iff.mp h.attached
  obtain ⟨inner, _, hinner, hlast, rfl⟩ := List.forall₂_cons_left_iff.mp hinside
  obtain ⟨closing, _, hclosing, hnil, rfl⟩ := List.forall₂_cons_left_iff.mp hlast
  cases hinner
  cases hnil
  exact ⟨h.kind_size, opening, closing, hchildren, hopening.text_eq, hclosing.text_eq⟩

theorem exists_growWrapped (hliterals : vocabulary.Spells ["(", ")"]) {n : NodeId}
    (h : forest.Tree n) (times : Nat) :
    ∃ after m, forest.growWrapped vocabulary n times = (after, .ok m) ∧
      after.Tree m ∧ after.WrapsTimes times m n := by
  induction times with
  | zero => exact ⟨forest, n, rfl, h, rfl⟩
  | succ times ih =>
      obtain ⟨middle, m, hgrow, htree, hwraps⟩ := ih
      obtain ⟨after, hwrap, hgrown⟩ := exists_grow .expression rfl
        (spelled_of_mem_wrappedParts hliterals htree.lt_size)
      have htree' : after.Tree middle.size :=
        hgrown.tree fun c hc => (node_mem_wrappedParts.mp hc) ▸ htree
      refine ⟨after, middle.size, ?_, htree', m, hgrown.wraps, hwraps.mono hgrown.extended⟩
      rw [growWrapped, hgrow]
      exact hwrap

/-! ## What is complained about -/

theorem message_wrapped_ne (text : String) :
    (Precondition.wrapped text).message ≠ (Precondition.parenthesized text).message := by
  intro heq
  have hends := String.append_right_inj _ |>.mp heq
  exact absurd hends (by decide)

/-- A node can be unwrapped exactly if it is an expression of three children with parentheses for
the outer two, and then its text is the one of the inner node in parentheses. About every other
node there is one of two complaints, and the text of the node decides which. What was wrapped any
number of times is found again by unwrapping it as often. -/
theorem Tree.unwrap_exact {n : NodeId} (h : forest.Tree n) :
    (∀ inner, (forest.unwrapParentheses n).outcome = .ok inner ↔ forest.Wraps n inner) ∧
    (∀ inner, forest.Wraps n inner → ∃ within, forest.text inner = .ok within ∧
      forest.text n = .ok ("(" ++ within ++ ")")) ∧
    ((∀ inner, ¬ forest.Wraps n inner) → ∃ text condition shown,
      forest.text n = .ok text ∧
      (forest.unwrapParentheses n).outcome = .error (.precondition condition) ∧
      forest.isParenthesized (some n) = .ok shown ∧
      condition = (if shown then .wrapped text else .parenthesized text) ∧
      (condition.message = "'" ++ text ++ "' is not a parenthesized expression" ↔
        shown = false)) ∧
    ∀ vocabulary : Vocabulary, vocabulary.Spells ["(", ")"] → ∀ times, ∃ after m,
      forest.growWrapped vocabulary n times = (after, .ok m) ∧
      (after.unwrapTimes times m).outcome = .ok n := by
  obtain ⟨text, htext⟩ := h.text_ok
  refine ⟨fun inner => unwrapParentheses_eq_ok_iff htext, ?_, ?_, ?_⟩
  · intro inner hwraps
    obtain ⟨within, hwithin, rfl⟩ := hwraps.text_eq htext
    exact ⟨within, hwithin, htext⟩
  · intro hno
    rcases unwrapParentheses_cases htext with ⟨inner, hwraps, -⟩ | ⟨-, hrest⟩
    · exact absurd hwraps (hno inner)
    rcases hrest with ⟨hshown, houtcome⟩ | ⟨hshown, houtcome⟩
    · exact ⟨text, _, false, htext, houtcome, hshown, rfl, iff_of_true rfl rfl⟩
    · exact ⟨text, _, true, htext, houtcome, hshown, rfl,
        iff_of_false (message_wrapped_ne text) (by simp)⟩
  · intro vocabulary hliterals times
    obtain ⟨after, m, hgrow, htree, hwraps⟩ := exists_growWrapped hliterals h times
    exact ⟨after, m, hgrow, outcome_unwrapTimes htree hwraps⟩

/-- One expression has its opening parenthesis from a rule node below it, the other one has a text
in parentheses and wraps nothing. -/
theorem Tree.unwrap_exact_nested :
    let vocabulary := Vocabulary.ofNames [none, some "'('", some "')'"] []
    let forest : Forest := ⟨#[
      { label := .rule (.ofKind .expression), children := [1, 3, 4] },
      { label := .rule (.ofKind .identifier), children := [2], parent := some 0 },
      { label := .token ⟨1, "("⟩ false, parent := some 1 },
      { label := .rule (.ofKind .expression), parent := some 0 },
      { label := .token ⟨7, ")"⟩ true, parent := some 0 },
      { label := .rule (.ofKind .expression), children := [6, 7, 8] },
      { label := .token ⟨3, "(a)"⟩ false, parent := some 5 },
      { label := .token ⟨4, "+"⟩ false, parent := some 5 },
      { label := .token ⟨3, "(b)"⟩ false, parent := some 5 }]⟩
    (forest.unwrapParentheses 0).outcome = .ok 3 ∧
    (forest.unwrapParentheses 5).outcome = .error (.precondition (.wrapped "(a)+(b)")) ∧
    ∃ after m, forest.growWrapped vocabulary 5 2 = (after, .ok m) ∧
      (after.unwrapTimes 2 m).outcome = .ok 5 := by
  intro vocabulary forest
  have hliterals : vocabulary.Spells ["(", ")"] := by
    have hnames : vocabulary.literalNames = ["'('", "')'"] := rfl
    rw [Vocabulary.Spells, hnames]
    decide
  have hnested : forest.Tree 0 := by
    refine .rule rfl ?_
    show ∀ c ∈ [1, 3, 4], forest.Tree c
    simp only [List.forall_mem_cons]
    exact ⟨.rule rfl (List.forall_mem_singleton.mpr (.token rfl)),
      .rule rfl (List.forall_mem_nil _), .token rfl, List.forall_mem_nil _⟩
  have hsum : forest.Tree 5 := by
    refine .rule rfl ?_
    show ∀ c ∈ [6, 7, 8], forest.Tree c
    simp only [List.forall_mem_cons]
    exact ⟨.token rfl, .token rfl, .token rfl, List.forall_mem_nil _⟩
  have hno : ∀ inner, ¬ forest.Wraps 5 inner := by
    intro inner hwraps
    obtain ⟨_, _, hchildren, hopening, -⟩ := hwraps.children_eq
    cases hchildren
    exact absurd (Except.ok.inj hopening) (by decide)
  obtain ⟨hiff, -⟩ := Tree.unwrap_exact hnested
  obtain ⟨-, -, hcomplaint, hwrapping⟩ := Tree.unwrap_exact hsum
  obtain ⟨text, condition, shown, htext, houtcome, hshown, rfl, -⟩ := hcomplaint hno
  cases htext
  cases hshown
  exact ⟨(hiff 3).mpr ⟨rfl, 1, 4, rfl, rfl, rfl⟩, houtcome, hwrapping vocabulary hliterals 2⟩

end Forest

end SolidityLint
