import Mathlib.Data.List.Chain
import SolidityLint.Proofs.ElseClauses
import SolidityLint.Proofs.TerminalsByText

/-!
# Chains of `else if`

A chain of `else if` is a tree that grows to one side: each if statement has the next one alone
in the statement behind its keyword. Conditions and then branches are any rule nodes, and they
may hold keywords and if statements of their own.

The keyword is found by its type, so what stands in front of it must have another one. The
literals there do, because no two literals have the same type, and the rest are rule nodes, whose
own terminals are not looked at (`Holds.type_ne`). So every link has the else branch that it was
made with, and the answers about one link depend on nothing but that branch and, from below, on
two parent links.

`growChain` makes a chain from its last link on, because a node is made of what is there. What a
link is made of are roots, and making a node changes no parent links but those of its parts. Hence
all trees that are still to be attached stay as they are (`ChainStands.kept`), and the chain so
far stays a chain (`ElseIfChain.mono`). The answers themselves are derived from the shape of the
chain alone, and hold whatever the order was in which its parts were made.
-/

namespace SolidityLint

/-- An if statement, and what it was made of besides its literals. -/
structure IfLink where
  node : NodeId
  condition : NodeId
  thenBranch : NodeId
  elseBranch : Option NodeId
deriving DecidableEq, Repr

/-- The parts of an if statement. -/
def ifParts (condition thenBranch : NodeId) (elseBranch : Option NodeId) : List Part :=
  [.text "if", .text "(", .node (some condition), .text ")", .node (some thenBranch)] ++
    match elseBranch with
    | none => []
    | some branch => [.text "else", .node (some branch)]

/-- The literals of if statements are in the vocabulary. -/
def Vocabulary.SpellsIf (vocabulary : Vocabulary) : Prop :=
  vocabulary.Spells ["if", "(", ")", "else"]

namespace Forest

variable {forest : Forest} {vocabulary : Vocabulary}

/-! ## The else branch of what was made of parts -/

theorem ruleAfter?_append {keyword : NodeId} {before after : List NodeId}
    (hkeyword : forest.isTerminal keyword = true) (hbefore : keyword ∉ before) :
    forest.ruleAfter? keyword (before ++ keyword :: after) =
      (after.find? fun n => !forest.isTerminal n).bind forest.occupant? := by
  have hdrop : (before ++ keyword :: after).dropWhile (· != keyword) = keyword :: after := by
    rw [List.dropWhile_append_of_pos]
    · simp
    · intro n hn
      simpa using fun heq : n = keyword => hbefore (heq ▸ hn)
  rw [ruleAfter?, hdrop, List.find?_cons_of_neg (by simp [hkeyword])]

theorem terminalOfType?_of_append {n : NodeId} {type : Int} {front back : List NodeId}
    (hchildren : forest.children n = front ++ back)
    (hfront : ∀ c ∈ front, ∀ token, forest.token? c = some token → token.type ≠ type) :
    forest.terminalOfType? n type =
      back.find? fun child => (forest.token? child).any (·.type == type) := by
  have hnone : front.find? (fun child => (forest.token? child).any (·.type == type)) = none := by
    refine List.find?_eq_none.mpr fun c hc hany => ?_
    obtain ⟨token, htoken, htype⟩ := (Option.any_eq_true ..).mp hany
    exact hfront c hc token htoken (beq_iff_eq.mp htype)
  rw [terminalOfType?, hchildren, List.find?_append, hnone, Option.none_or]

/-- The node of a link is an if statement with the parts of the link for its children. -/
structure Holds (forest : Forest) (vocabulary : Vocabulary) (link : IfLink) : Prop where
  kind_eq : forest.kind link.node = .ifStatement
  attached : List.Forall₂ (forest.AttachedAs vocabulary 0)
    (ifParts link.condition link.thenBranch link.elseBranch) (forest.children link.node)
  isRule_condition : forest.isRule link.condition = true
  isRule_thenBranch : forest.isRule link.thenBranch = true
  kind_elseBranch : ∀ b ∈ link.elseBranch, forest.kind b = .statement

/-- The literals in front of the keyword `else` have other types than it, and what is no literal
there is no terminal. -/
theorem Holds.type_ne {link : IfLink} (h : forest.Holds vocabulary link)
    (hliterals : vocabulary.SpellsIf) {front : List NodeId}
    (hfront : List.Forall₂ (forest.AttachedAs vocabulary 0)
      [.text "if", .text "(", .node (some link.condition), .text ")", .node (some link.thenBranch)]
      front) :
    ∀ c ∈ front, ∀ token, forest.token? c = some token →
      token.type ≠ vocabulary.tokenType (Vocabulary.inQuotes "else") := by
  intro c hc token htoken
  obtain ⟨part, hpart, hattached⟩ := exists_of_mem_right hfront c hc
  match part with
  | .text text =>
      have hmem : text = "if" ∨ text = "(" ∨ text = ")" := by simpa using hpart
      have hliteral : Vocabulary.inQuotes text ∈ vocabulary.literalNames :=
        hliterals text (by rcases hmem with rfl | rfl | rfl <;> simp)
      have hne : text ≠ "else" := by rcases hmem with rfl | rfl | rfl <;> decide
      exact hattached.type_ne hliteral hne htoken
  | .node _ =>
      cases hattached with
      | node _ =>
          have hrule : forest.isRule c = true := by
            have hmem : c = link.condition ∨ c = link.thenBranch := by simpa using hpart
            rcases hmem with rfl | rfl
            · exact h.isRule_condition
            · exact h.isRule_thenBranch
          rw [token?_eq_none hrule] at htoken
          cases htoken

theorem Holds.elseBranch?_eq {link : IfLink} (h : forest.Holds vocabulary link)
    (hliterals : vocabulary.SpellsIf) :
    forest.elseBranch? vocabulary link.node = link.elseBranch := by
  have hrule : forest.isRule link.node = true := isRule_of_ifStatement h.kind_eq
  have helse : Vocabulary.inQuotes "else" ∈ vocabulary.literalNames := hliterals "else" (by simp)
  obtain ⟨front, back, hchildren, hfront, hback⟩ := exists_append_of_append h.attached
  have hother := h.type_ne hliterals hfront
  rw [Forest.elseBranch?_eq hrule, value_findTerminal hrule,
    if_neg (Vocabulary.mem_literalNames_iff.mp helse), terminalOfType?_of_append hchildren hother,
    hchildren]
  cases hbranch : link.elseBranch with
  | none =>
      rw [hbranch] at hback
      cases hback
      rfl
  | some b =>
      rw [hbranch] at hback
      obtain ⟨keyword, rest, hkeyword, hrest, rfl⟩ := List.forall₂_cons_left_iff.mp hback
      obtain ⟨b', rest', hb, hnil, rfl⟩ := List.forall₂_cons_left_iff.mp hrest
      cases hb
      cases hnil
      have htoken := hkeyword.token?_eq helse
      have hterminal : forest.isTerminal keyword = true := by
        rw [isTerminal, htoken]
        rfl
      have hbefore : keyword ∉ front := fun hmem => hother keyword hmem _ htoken rfl
      have hstatement := isRule_of_statement (h.kind_elseBranch b hbranch)
      obtain ⟨label, hlabel⟩ := isRule_iff.mp hstatement
      rw [List.find?_cons_of_pos (by simp [htoken]), Option.bind_some,
        ruleAfter?_append hterminal hbefore]
      simp [isTerminal, token?_eq_none hstatement, occupant?, hlabel]

/-! ## Chains -/

/-- A statement that begins with something else than an if statement. -/
structure PlainTail (forest : Forest) (d : NodeId) : Prop where
  kind_eq : forest.kind d = .statement
  begins : ∃ x, (forest.children d).head? = some x ∧ forest.kind x ≠ .ifStatement

/-- A chain of if statements, the first one outermost: each has the next one alone in its else
branch, and the last one has the tail of the chain for its else branch, if there is one. -/
structure ElseIfChain (forest : Forest) (vocabulary : Vocabulary) (tail : Option NodeId)
    (chain : List IfLink) : Prop where
  holds : ∀ link ∈ chain, forest.Holds vocabulary link
  nested : chain.IsChain fun link next =>
    ∃ b, link.elseBranch = some b ∧ forest.children b = [next.node]
  last : ∀ link ∈ chain.getLast?, link.elseBranch = tail
  tail_plain : ∀ d ∈ tail, forest.PlainTail d

/-- What is answered about a chain, link by link. -/
structure ChainAnswers (forest : Forest) (vocabulary : Vocabulary) (tail : Option NodeId)
    (chain : List IfLink) : Prop where
  elseBranch?_eq : ∀ link ∈ chain, forest.elseBranch? vocabulary link.node = link.elseBranch
  first : ∀ link ∈ chain.head?, (forest.isElseIf vocabulary link.node).value = false
  inner : chain.IsChain fun link next =>
    (∃ b, link.elseBranch = some b ∧ forest.kind b = .statement ∧
      forest.children b = [next.node]) ∧
    (forest.elseClause vocabulary link.node).outcome = .ok .elseIf ∧
    (forest.plainElse vocabulary link.node).outcome = .ok none ∧
    (forest.isElseIf vocabulary next.node).value = true
  last : ∀ link ∈ chain.getLast?, link.elseBranch = tail ∧
    (forest.elseClause vocabulary link.node).outcome =
      .ok (if tail.isSome then .plain else .absent) ∧
    (forest.plainElse vocabulary link.node).outcome = .ok tail

section Answers

variable {tail : Option NodeId} {first : IfLink} {rest : List IfLink}
  (hliterals : vocabulary.SpellsIf) (h : forest.ElseIfChain vocabulary tail (first :: rest))
  (htree : forest.MirroredTree first.node)

include hliterals h

/-- A chain leads down from link to link, so all of it is in the tree of the first one. -/
theorem ElseIfChain.inTree :
    ∀ link ∈ first :: rest, forest.InTree first.node link.node := by
  have hdown : (first :: rest).IsChain fun link next =>
      forest.InTree first.node link.node → forest.InTree first.node next.node := by
    refine h.nested.imp_of_mem_imp fun link next hlink _ ⟨b, hb, hholds⟩ hin => ?_
    have hlinkholds := h.holds link hlink
    have hbranch := (hlinkholds.elseBranch?_eq hliterals).trans hb
    refine (hin.tail (descends_of_elseBranch? hbranch)).tail
      ⟨isRule_of_statement (hlinkholds.kind_elseBranch b hb), ?_⟩
    rw [hholds]
    exact List.mem_singleton_self _
  exact hdown.induction _ _ (fun _ _ hstep => hstep) fun _ => .refl

include htree

theorem ElseIfChain.text_ok : ∀ link ∈ first :: rest, ∃ text, forest.text link.node = .ok text :=
  fun link hlink => (htree.tree.of_inTree (h.inTree hliterals link hlink)).text_ok

theorem ElseIfChain.answers_inner {link next : IfLink} (hlink : link ∈ first :: rest)
    (hnext : next ∈ first :: rest) {b : NodeId} (hb : link.elseBranch = some b)
    (hholds : forest.children b = [next.node]) :
    (forest.elseClause vocabulary link.node).outcome = .ok .elseIf ∧
      (forest.plainElse vocabulary link.node).outcome = .ok none ∧
      (forest.isElseIf vocabulary next.node).value = true := by
  have htext := h.text_ok hliterals htree link hlink
  have hin := h.inTree hliterals link hlink
  have hkind := (h.holds link hlink).kind_eq
  have hstatement := (h.holds link hlink).kind_elseBranch b hb
  have hbranch := ((h.holds link hlink).elseBranch?_eq hliterals).trans hb
  have hbegins : forest.beginsWithIf b = true :=
    beginsWithIf_iff.mpr ⟨next.node, by rw [hholds]; rfl, (h.holds next hnext).kind_eq⟩
  have hmem : next.node ∈ forest.children b := by
    rw [hholds]
    exact List.mem_singleton_self _
  obtain ⟨hclause, hplain⟩ := elseIf_of_beginsWithIf htext hkind hbranch hbegins
  exact ⟨hclause, hplain, htree.isElseIf_of_elseBranch? hin hkind hbranch hstatement hmem⟩

theorem ElseIfChain.answers_last {link : IfLink} (hlast : link ∈ (first :: rest).getLast?) :
    (forest.elseClause vocabulary link.node).outcome =
        .ok (if tail.isSome then .plain else .absent) ∧
      (forest.plainElse vocabulary link.node).outcome = .ok tail := by
  have hlink := List.mem_of_getLast? hlast
  have htext := h.text_ok hliterals htree link hlink
  have hkind := (h.holds link hlink).kind_eq
  have hbranch := ((h.holds link hlink).elseBranch?_eq hliterals).trans (h.last link hlast)
  cases htail : tail with
  | none =>
      rw [htail] at hbranch
      refine ⟨(elseClause_absent_iff htext hkind).mpr hbranch, ?_⟩
      refine (plainElse_none_iff htext hkind).mpr fun b hb => ?_
      cases hbranch.symm.trans hb
  | some d =>
      rw [htail] at hbranch
      obtain ⟨x, hfirst, hx⟩ := (h.tail_plain d htail).begins
      have hbegins : forest.beginsWithIf d = false := by
        refine Bool.eq_false_iff.mpr fun htrue => ?_
        obtain ⟨x', hfirst', hx'⟩ := beginsWithIf_iff.mp htrue
        cases hfirst.symm.trans hfirst'
        exact hx hx'
      have hchildren : forest.children d ≠ [] := by
        intro hnil
        rw [hnil] at hfirst
        cases hfirst
      exact ⟨(elseClause_plain_iff htext hkind).mpr ⟨d, hbranch, hbegins⟩,
        (plainElse_some_iff htext hkind).mpr ⟨hbranch, hchildren, hbegins⟩⟩

theorem ElseIfChain.answers : forest.ChainAnswers vocabulary tail (first :: rest) where
  elseBranch?_eq link hlink := (h.holds link hlink).elseBranch?_eq hliterals
  first := by
    rintro link ⟨⟩
    refine Bool.eq_false_iff.mpr fun htrue => ?_
    obtain ⟨s, o, hparent, -⟩ := isElseIf_iff.mp htrue
    rw [htree.root_parent?] at hparent
    cases hparent
  inner := by
    refine h.nested.imp_of_mem_imp fun link next hlink hnext ⟨b, hb, hholds⟩ => ?_
    exact ⟨⟨b, hb, (h.holds link hlink).kind_elseBranch b hb, hholds⟩,
      h.answers_inner hliterals htree hlink hnext hb hholds⟩
  last link hlast := ⟨h.last link hlast, h.answers_last hliterals htree hlast⟩

end Answers

/-! ## Chains that are built -/

theorem node_mem_ifParts {e s n : NodeId} {branch : Option NodeId} :
    .node (some n) ∈ ifParts e s branch ↔ n = e ∨ n = s ∨ branch = some n := by
  cases branch <;> simp [ifParts, eq_comm]

theorem spelled_of_mem_ifParts (hliterals : vocabulary.SpellsIf) {e s : NodeId}
    {branch : Option NodeId} (hnodes : ∀ n, .node (some n) ∈ ifParts e s branch → n < forest.size) :
    ∀ part ∈ ifParts e s branch, part.Spelled vocabulary forest := by
  have htexts : ∀ text, .text text ∈ ifParts e s branch → text ∈ ["if", "(", ")", "else"] := by
    intro text hmem
    cases branch with
    | none =>
        have hmem : text = "if" ∨ text = "(" ∨ text = ")" := by simpa [ifParts] using hmem
        rcases hmem with rfl | rfl | rfl <;> simp
    | some b => simpa [ifParts] using hmem
  intro part hpart
  rcases part with text | _ | n
  · exact .literal (hliterals text (htexts text hpart))
  · cases branch <;> simp [ifParts] at hpart
  · exact .node (hnodes n hpart)

/-- An if statement can be made of any rule nodes, with any statement for its else branch. -/
theorem exists_growIf (hliterals : vocabulary.SpellsIf) {e s : NodeId} {branch : Option NodeId}
    (he : forest.isRule e = true) (hs : forest.isRule s = true)
    (hbranch : ∀ b ∈ branch, forest.kind b = .statement) :
    ∃ after, forest.grow vocabulary .ifStatement (ifParts e s branch) = (after, .ok forest.size) ∧
      Grown forest after vocabulary (.ofKind .ifStatement) (ifParts e s branch) ∧
      after.Holds vocabulary ⟨forest.size, e, s, branch⟩ := by
  have hstatement : ∀ b ∈ branch, b < forest.size :=
    fun b hb => lt_size_of_isRule (isRule_of_statement (hbranch b hb))
  have hlt : ∀ n, .node (some n) ∈ ifParts e s branch → n < forest.size := by
    intro n hn
    rcases node_mem_ifParts.mp hn with rfl | rfl | hn
    · exact lt_size_of_isRule he
    · exact lt_size_of_isRule hs
    · exact hstatement n hn
  obtain ⟨after, hgrow, hgrown⟩ := exists_grow .ifStatement rfl
    (spelled_of_mem_ifParts hliterals hlt)
  have hextends := hgrown.extended
  refine ⟨after, hgrow, hgrown, hgrown.kind_size, ?_, ?_, ?_, ?_⟩
  · exact hgrown.attached.imp fun _ _ => AttachedAs.mono (.refl after) (Nat.zero_le _)
  · exact hextends.isRule he
  · exact hextends.isRule hs
  · intro b hb
    exact (hextends.kind_eq (hstatement b hb)).trans (hbranch b hb)

theorem exists_growStatement (vocabulary : Vocabulary) {n : NodeId} (hn : n < forest.size) :
    ∃ after, forest.grow vocabulary .statement [.node (some n)] = (after, .ok forest.size) ∧
      Grown forest after vocabulary (.ofKind .statement) [.node (some n)] ∧
      after.kind forest.size = .statement ∧ after.children forest.size = [n] := by
  obtain ⟨after, hgrow, hgrown⟩ := exists_grow .statement rfl
    (List.forall_mem_singleton.mpr (Part.Spelled.node hn))
  refine ⟨after, hgrow, hgrown, hgrown.kind_size, ?_⟩
  obtain ⟨c, rest, hfirst, hrest, hchildren⟩ := List.forall₂_cons_left_iff.mp hgrown.attached
  cases hfirst
  cases hrest
  exact hchildren

section Mono

variable {before after : Forest}

theorem Holds.mono (hextends : Extends before after) {link : IfLink}
    (h : before.Holds vocabulary link) : after.Holds vocabulary link := by
  have hn : link.node < before.size := lt_size_of_isRule (isRule_of_ifStatement h.kind_eq)
  refine ⟨(hextends.kind_eq hn).trans h.kind_eq, ?_, ?_, ?_, ?_⟩
  · rw [hextends.children_eq _ hn]
    exact h.attached.imp fun _ _ => AttachedAs.mono hextends (Nat.le_refl _)
  · exact hextends.isRule h.isRule_condition
  · exact hextends.isRule h.isRule_thenBranch
  · intro b hb
    have hkind := h.kind_elseBranch b hb
    exact (hextends.kind_eq (lt_size_of_isRule (isRule_of_statement hkind))).trans hkind

theorem PlainTail.mono (hextends : Extends before after) {d : NodeId} (htree : before.Tree d)
    (h : before.PlainTail d) : after.PlainTail d := by
  have hrule := isRule_of_statement h.kind_eq
  have hd := htree.lt_size
  obtain ⟨x, hfirst, hx⟩ := h.begins
  have hin : before.InTree d x := .single ⟨hrule, List.mem_of_head? hfirst⟩
  refine ⟨(hextends.kind_eq hd).trans h.kind_eq, x, ?_, ?_⟩
  · rw [hextends.children_eq d hd, hfirst]
  · rwa [hextends.kind_eq (htree.of_inTree hin).lt_size]

theorem ElseIfChain.mono (hextends : Extends before after) {tail : Option NodeId}
    {chain : List IfLink} (htail : ∀ d ∈ tail, before.Tree d)
    (h : before.ElseIfChain vocabulary tail chain) :
    after.ElseIfChain vocabulary tail chain where
  holds link hlink := (h.holds link hlink).mono hextends
  nested := by
    refine h.nested.imp_of_mem_imp fun link next hlink _ ⟨b, hb, hholds⟩ => ⟨b, hb, ?_⟩
    have hrule := isRule_of_statement ((h.holds link hlink).kind_elseBranch b hb)
    rw [hextends.children_eq b (lt_size_of_isRule hrule), hholds]
  last := h.last
  tail_plain d hd := (h.tail_plain d hd).mono hextends (htail d hd)

end Mono

/-- Makes an if statement and puts it in front of a chain. -/
def growLink (forest : Forest) (vocabulary : Vocabulary) (condition thenBranch : NodeId)
    (elseBranch : Option NodeId) (chain : List IfLink) : Forest × Except Fault (List IfLink) :=
  match forest.grow vocabulary .ifStatement (ifParts condition thenBranch elseBranch) with
  | (forest, .ok n) => (forest, .ok (⟨n, condition, thenBranch, elseBranch⟩ :: chain))
  | (forest, .error fault) => (forest, .error fault)

/-- Makes a chain of conditions and then branches. The last link is made first and has the tail
for its else branch; for each other one a statement is made that holds the link behind it. -/
def growChain (forest : Forest) (vocabulary : Vocabulary) (tail : Option NodeId) :
    List (NodeId × NodeId) → Forest × Except Fault (List IfLink)
  | [] => (forest, .ok [])
  | (condition, thenBranch) :: rest =>
    match forest.growChain vocabulary tail rest with
    | (forest, .error fault) => (forest, .error fault)
    | (forest, .ok []) => forest.growLink vocabulary condition thenBranch tail []
    | (forest, .ok (next :: chain)) =>
      match forest.grow vocabulary .statement [.node (some next.node)] with
      | (forest, .error fault) => (forest, .error fault)
      | (forest, .ok branch) =>
        forest.growLink vocabulary condition thenBranch (some branch) (next :: chain)

/-- A rule node that is the root of a tree, so that it can be attached. -/
structure Loose (forest : Forest) (n : NodeId) : Prop where
  isRule : forest.isRule n = true
  mirrored : forest.MirroredTree n

/-- The nodes that a chain is made of. -/
def looseNodes (tail : Option NodeId) (links : List (NodeId × NodeId)) : List NodeId :=
  links.flatMap (fun link => [link.1, link.2]) ++ tail.toList

theorem looseNodes_cons (tail : Option NodeId) (e s : NodeId) (rest : List (NodeId × NodeId)) :
    looseNodes tail ((e, s) :: rest) = e :: s :: looseNodes tail rest := rfl

/-- A chain stands in a forest that was extended for it. The nodes that it was not made of are
what they were. -/
structure ChainStands (before after : Forest) (vocabulary : Vocabulary) (tail : Option NodeId)
    (loose : List NodeId) (first : IfLink) (rest : List IfLink) : Prop where
  extended : Extends before after
  le_node : before.size ≤ first.node
  chain : after.ElseIfChain vocabulary tail (first :: rest)
  mirrored : after.MirroredTree first.node
  kept : ∀ n, before.MirroredTree n → n ∉ loose → after.MirroredTree n

section Steps

variable {before : Forest} {tail : Option NodeId} {e s : NodeId}
  (hliterals : vocabulary.SpellsIf)
  (he : before.Loose e) (hs : before.Loose s)
  (htail : ∀ d ∈ tail, before.PlainTail d ∧ before.Loose d)

include hliterals he hs htail

theorem exists_last :
    ∃ after, before.grow vocabulary .ifStatement (ifParts e s tail) = (after, .ok before.size) ∧
      ChainStands before after vocabulary tail (looseNodes tail [(e, s)])
        ⟨before.size, e, s, tail⟩ [] := by
  obtain ⟨after, hgrow, hgrown, hholds⟩ := exists_growIf hliterals he.isRule hs.isRule
    fun d hd => (htail d hd).1.kind_eq
  have hparts : ∀ n, .node (some n) ∈ ifParts e s tail → before.MirroredTree n := by
    intro n hn
    rcases node_mem_ifParts.mp hn with rfl | rfl | hn
    · exact he.mirrored
    · exact hs.mirrored
    · exact (htail n hn).2.mirrored
  have hchain : after.ElseIfChain vocabulary tail [⟨before.size, e, s, tail⟩] := by
    refine ⟨List.forall_mem_singleton.mpr hholds, .singleton _, ?_, fun d hd => ?_⟩
    · rintro link ⟨⟩
      rfl
    · exact (htail d hd).1.mono hgrown.extended (htail d hd).2.mirrored.tree
  refine ⟨after, hgrow, hgrown.extended, Nat.le_refl _, hchain, hgrown.mirroredTree hparts, ?_⟩
  intro n hn hfree
  refine hgrown.mirroredTree_of_free hparts hn fun hpart => hfree ?_
  simpa [looseNodes, eq_comm] using node_mem_ifParts.mp hpart

theorem ChainStands.exists_link {inner : Forest} {loose : List NodeId} {next : IfLink}
    {chain : List IfLink} (h : ChainStands before inner vocabulary tail loose next chain)
    (he' : e ∉ loose) (hs' : s ∉ loose) :
    ∃ middle after n,
      inner.grow vocabulary .statement [.node (some next.node)] = (middle, .ok inner.size) ∧
      middle.grow vocabulary .ifStatement (ifParts e s (some inner.size)) = (after, .ok n) ∧
      ChainStands before after vocabulary tail (e :: s :: loose) ⟨n, e, s, some inner.size⟩
        (next :: chain) := by
  obtain ⟨middle, hstatement, hmiddle, hkind, hholds⟩ :=
    exists_growStatement vocabulary h.mirrored.tree.lt_size
  have hroot : ∀ n, .node (some n) ∈ [Part.node (some next.node)] → inner.MirroredTree n := by
    simpa using h.mirrored
  -- The next link is newer than all that was there before, so it is none of that.
  have hkept : ∀ n, before.MirroredTree n → n ∉ loose → middle.MirroredTree n := by
    intro n hn hfree
    have hne : n ≠ next.node := Nat.ne_of_lt (Nat.lt_of_lt_of_le hn.tree.lt_size h.le_node)
    exact hmiddle.mirroredTree_of_free hroot (h.kept n hn hfree) (by simpa using hne)
  have hextended := h.extended.trans hmiddle.extended
  have hbranch : ∀ b ∈ some inner.size, middle.kind b = .statement := by
    rintro b ⟨⟩
    exact hkind
  obtain ⟨after, hif, hafter, hlink⟩ := exists_growIf hliterals
    (hextended.isRule he.isRule) (hextended.isRule hs.isRule) hbranch
  have hparts : ∀ n, .node (some n) ∈ ifParts e s (some inner.size) → middle.MirroredTree n := by
    intro n hn
    rcases node_mem_ifParts.mp hn with rfl | rfl | hn
    · exact hkept n he.mirrored he'
    · exact hkept n hs.mirrored hs'
    · cases hn
      exact hmiddle.mirroredTree hroot
  have hchain : after.ElseIfChain vocabulary tail (next :: chain) :=
    h.chain.mono (hmiddle.extended.trans hafter.extended)
      fun d hd => h.extended.tree (htail d hd).2.mirrored.tree
  have hsize : inner.size < middle.size := lt_size_of_isRule (isRule_of_statement hkind)
  refine ⟨middle, after, middle.size, hstatement, hif, hextended.trans hafter.extended,
    hextended.size_le, ⟨?_, ?_, ?_, hchain.tail_plain⟩, hafter.mirroredTree hparts, ?_⟩
  · exact List.forall_mem_cons.mpr ⟨hlink, hchain.holds⟩
  · refine List.isChain_cons_cons.mpr ⟨⟨inner.size, rfl, ?_⟩, hchain.nested⟩
    rw [hafter.extended.children_eq _ hsize, hholds]
  · rw [List.getLast?_cons_cons]
    exact hchain.last
  · intro n hn hfree
    simp only [List.mem_cons, not_or] at hfree
    obtain ⟨hnee, hnes, hfree⟩ := hfree
    refine hafter.mirroredTree_of_free hparts (hkept n hn hfree) fun hpart => ?_
    rcases node_mem_ifParts.mp hpart with heq | heq | heq
    · exact hnee heq
    · exact hnes heq
    · cases heq
      exact Nat.not_lt.mpr h.extended.size_le hn.tree.lt_size

end Steps

theorem exists_growChain (hliterals : vocabulary.SpellsIf) {tail : Option NodeId}
    (htail : ∀ d ∈ tail, forest.PlainTail d) :
    ∀ {links : List (NodeId × NodeId)}, links ≠ [] →
      (∀ n ∈ looseNodes tail links, forest.Loose n) →
      (looseNodes tail links).Nodup →
      ∃ after first rest, forest.growChain vocabulary tail links = (after, .ok (first :: rest)) ∧
        (first :: rest).map (fun link => (link.condition, link.thenBranch)) = links ∧
        ChainStands forest after vocabulary tail (looseNodes tail links) first rest := by
  intro links
  induction links with
  | nil => exact fun hne => absurd rfl hne
  | cons link rest ih =>
      -- The links behind this one are built before it, and that kept what it is made of.
      intro _ hloose hnodup
      obtain ⟨e, s⟩ := link
      have htail' : ∀ d ∈ tail, forest.PlainTail d ∧ forest.Loose d :=
        fun d hd => ⟨htail d hd, hloose d (by simp [looseNodes, Option.mem_def.mp hd])⟩
      rw [looseNodes_cons, List.forall_mem_cons, List.forall_mem_cons] at hloose
      obtain ⟨he, hs, hothers⟩ := hloose
      rw [looseNodes_cons, List.nodup_cons, List.nodup_cons] at hnodup
      obtain ⟨he', hs', hnodup⟩ := hnodup
      by_cases hrest : rest = []
      · obtain rfl := hrest
        obtain ⟨after, hif, hstands⟩ := exists_last hliterals he hs htail'
        refine ⟨after, _, _, ?_, rfl, hstands⟩
        simp only [growChain, growLink, hif]
      · obtain ⟨inner, next, chain, hgrow, hmap, hstands⟩ := ih hrest hothers hnodup
        obtain ⟨middle, after, n, hstatement, hif, hstands'⟩ := hstands.exists_link hliterals he hs
          htail' (fun hmem => he' (List.mem_cons_of_mem _ hmem)) hs'
        refine ⟨after, ⟨n, e, s, some inner.size⟩, next :: chain, ?_, congrArg ((e, s) :: ·) hmap,
          hstands'⟩
        simp only [growChain, hgrow, hstatement, growLink, hif]

/-- Chains of `else if` of any length, in every vocabulary with the literals of if statements.
First, a chain can be built of any rule nodes that are roots and of any tail, each attached once,
and it is then answered link by link. Second, it does not matter how it came about: every chain
is answered so in which parent links mirror the lists of children, the first link having none. -/
theorem growChain_classified (hliterals : vocabulary.SpellsIf) :
    (∀ (forest : Forest) (tail : Option NodeId) (links : List (NodeId × NodeId)), links ≠ [] →
      (∀ n ∈ looseNodes tail links, forest.Loose n) →
      (looseNodes tail links).Nodup → (∀ d ∈ tail, forest.PlainTail d) →
      ∃ after chain, forest.growChain vocabulary tail links = (after, .ok chain) ∧
        chain.map (fun link => (link.condition, link.thenBranch)) = links ∧
        (∀ link ∈ chain, after.Holds vocabulary link) ∧
        after.ChainAnswers vocabulary tail chain) ∧
    ∀ (forest : Forest) (tail : Option NodeId) (first : IfLink) (rest : List IfLink),
      forest.ElseIfChain vocabulary tail (first :: rest) → forest.MirroredTree first.node →
      forest.ChainAnswers vocabulary tail (first :: rest) := by
  refine ⟨?_, fun forest tail first rest hchain htree => hchain.answers hliterals htree⟩
  intro forest tail links hne hloose hnodup htail
  obtain ⟨after, first, rest, hgrow, hmap, hstands⟩ :=
    exists_growChain hliterals htail hne hloose hnodup
  exact ⟨after, first :: rest, hgrow, hmap, hstands.chain.holds,
    hstands.chain.answers hliterals hstands.mirrored⟩

/-- The then branch of the first link is an if statement with an else branch of its own. -/
theorem growChain_classified_two :
    let vocabulary := Vocabulary.ofNames
      [none, some "'if'", some "'('", some "')'", some "'else'"] []
    let forest : Forest := ⟨#[
      { label := .rule (.ofKind .expression) },
      { label := .rule (.ofKind .ifStatement), children := [2, 3] },
      { label := .token ⟨4, "else"⟩ false, parent := some 1 },
      { label := .rule (.ofKind .statement), parent := some 1 },
      { label := .rule (.ofKind .expression) },
      { label := .rule (.ofKind .statement) },
      { label := .rule (.ofKind .statement), children := [7] },
      { label := .rule (.ofKind .block), parent := some 6 }]⟩
    ∃ after first second,
      forest.growChain vocabulary (some 6) [(0, 1), (4, 5)] = (after, .ok [first, second]) ∧
      (after.elseClause vocabulary first.node).outcome = .ok .elseIf ∧
      (after.isElseIf vocabulary first.node).value = false ∧
      (after.isElseIf vocabulary second.node).value = true ∧
      (after.plainElse vocabulary second.node).outcome = .ok (some 6) := by
  intro vocabulary forest
  have hliterals : vocabulary.SpellsIf := by
    have hnames : vocabulary.literalNames = ["'if'", "'('", "')'", "'else'"] := rfl
    rw [Vocabulary.SpellsIf, Vocabulary.Spells, hnames]
    decide
  have hlinks : ∀ p < forest.size, ∀ c ∈ forest.children p, forest.parent? c = some p := by
    decide
  have hleaf : ∀ n, forest.isRule n = true → forest.children n = [] → forest.Tree n := by
    intro n hrule hnil
    obtain ⟨label, hlabel⟩ := isRule_iff.mp hrule
    refine .rule hlabel ?_
    rw [hnil]
    exact List.forall_mem_nil _
  have hif : forest.Tree 1 := by
    refine .rule rfl ?_
    show ∀ c ∈ [2, 3], forest.Tree c
    simp only [List.forall_mem_cons]
    exact ⟨.token rfl, hleaf 3 rfl rfl, List.forall_mem_nil _⟩
  have hblock : forest.Tree 6 := .rule rfl (List.forall_mem_singleton.mpr (hleaf 7 rfl rfl))
  have hloose : ∀ n ∈ looseNodes (some 6) [(0, 1), (4, 5)], forest.Loose n := by
    show ∀ n ∈ [0, 1, 4, 5, 6], _
    simp only [List.forall_mem_cons]
    exact ⟨⟨rfl, .of_links (hleaf 0 rfl rfl) rfl hlinks⟩, ⟨rfl, .of_links hif rfl hlinks⟩,
      ⟨rfl, .of_links (hleaf 4 rfl rfl) rfl hlinks⟩, ⟨rfl, .of_links (hleaf 5 rfl rfl) rfl hlinks⟩,
      ⟨rfl, .of_links hblock rfl hlinks⟩, List.forall_mem_nil _⟩
  have htail : ∀ d ∈ some 6, forest.PlainTail d := by
    rintro d ⟨⟩
    exact ⟨rfl, 7, rfl, by decide⟩
  obtain ⟨hbuilt, -⟩ := growChain_classified hliterals
  obtain ⟨after, chain, hgrow, hmap, -, hanswers⟩ := hbuilt forest (some 6) [(0, 1), (4, 5)]
    (List.cons_ne_nil _ _) hloose (by decide) htail
  obtain ⟨first, second, rfl⟩ : ∃ first second, chain = [first, second] := by
    rw [← List.length_eq_two, ← List.length_map, hmap]
    rfl
  have hinner := List.isChain_pair.mp hanswers.inner
  exact ⟨after, first, second, hgrow, hinner.2.1, hanswers.first first rfl, hinner.2.2.2,
    (hanswers.last second rfl).2.2⟩

end Forest

end SolidityLint
