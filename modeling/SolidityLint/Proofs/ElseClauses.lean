import SolidityLint.Proofs.MirroredTrees
import SolidityLint.Query.ElseClause

/-!
# Else clauses from above and from below

Whether an if statement is the `if` of an `else if` can be told from two ends. From above, the
else branch of an if statement is taken, by a walk along its children behind the first keyword,
and it counts what the branch begins with. From below, two parent links are followed, and it
counts whether the else branch of the node that they lead to is the one in between. The first
way never looks at a link and the second never at what comes first.

The two meet where links mirror the lists of children (`MirroredTree`). An else branch is always
one of the children, so its link leads back to the if statement it was taken from, and the link
of what it begins with leads back to it. What the children are does not matter otherwise: several
keywords, keywords that the parser could not place, terminals behind them and further statements
all change which child is the branch, and both ways ask the same function for it.
-/

namespace SolidityLint

open Checked

namespace Forest

variable {forest : Forest} {vocabulary : Vocabulary}

/-! ## Kinds and labels -/

theorem isRule_of_kind {n : NodeId} (h : (forest.kind n).isRule = true) :
    forest.isRule n = true := by
  rw [isRule_iff]
  rw [kind] at h
  cases hlabel : forest.label? n with
  | none => rw [hlabel] at h; cases h
  | some label =>
      rw [hlabel] at h
      cases label with
      | rule label => exact ⟨label, rfl⟩
      | token _ erroneous => cases erroneous <;> cases h
      | gap => cases h

theorem isRule_of_ifStatement {n : NodeId} (h : forest.kind n = .ifStatement) :
    forest.isRule n = true :=
  isRule_of_kind (by rw [h]; rfl)

theorem isRule_of_statement {n : NodeId} (h : forest.kind n = .statement) :
    forest.isRule n = true :=
  isRule_of_kind (by rw [h]; rfl)

/-! ## The answers without their events -/

/-- The else branch of a node, without the events of looking for it. -/
def elseBranch? (forest : Forest) (vocabulary : Vocabulary) (n : NodeId) : Option NodeId :=
  (forest.elseBranch vocabulary (some n)).value

theorem elseBranch?_eq {n : NodeId} (h : forest.isRule n = true) :
    forest.elseBranch? vocabulary n =
      (forest.findTerminal vocabulary (some n) (Vocabulary.inQuotes "else")).value.bind
        fun keyword => forest.ruleAfter? keyword (forest.children n) := by
  have hchildren : forest.ruleChildren (some n) = forest.children n := by
    simp [ruleChildren, Option.filter, h]
  rw [elseBranch?, elseBranch, Traced.value_bind, hchildren]
  cases (forest.findTerminal vocabulary (some n) (Vocabulary.inQuotes "else")).value <;> rfl

theorem mem_of_ruleAfter? {mark b : NodeId} {nodes : List NodeId}
    (h : forest.ruleAfter? mark nodes = some b) : b ∈ nodes := by
  rw [ruleAfter?, Option.bind_eq_some_iff] at h
  obtain ⟨found, hfound, hoccupant⟩ := h
  cases eq_of_occupant? hoccupant
  exact (List.dropWhile_sublist _).subset (List.mem_of_find?_eq_some hfound)

theorem descends_of_elseBranch? {o b : NodeId} (h : forest.elseBranch? vocabulary o = some b) :
    forest.Descends o b := by
  by_cases hrule : forest.isRule o = true
  · rw [elseBranch?_eq hrule, Option.bind_eq_some_iff] at h
    obtain ⟨keyword, -, hafter⟩ := h
    exact ⟨hrule, mem_of_ruleAfter? hafter⟩
  · simp only [elseBranch?, elseBranch, findTerminal, Option.filter, hrule] at h
    cases h

theorem beginsWithIf_iff {n : NodeId} :
    forest.beginsWithIf n = true ↔
      ∃ x, (forest.children n).head? = some x ∧ forest.kind x = .ifStatement := by
  simp [beginsWithIf, isKind, Option.any_eq_true]

theorem outcome_demand (holds : Bool) (condition : Precondition) :
    (demand holds condition).outcome =
      if holds then .ok () else .error (.precondition condition) := by
  cases holds <;> rfl

theorem outcome_elseClause {o : NodeId} (htext : ∃ text, forest.text o = .ok text)
    (hkind : forest.kind o = .ifStatement) :
    (forest.elseClause vocabulary o).outcome =
      .ok (match forest.elseBranch? vocabulary o with
        | none => .absent
        | some b => if forest.beginsWithIf b then .elseIf else .plain) := by
  obtain ⟨text, htext⟩ := htext
  simp only [elseClause, readText, outcome_bind, outcome_ofExcept, outcome_demand,
    outcome_monadLift, htext, hkind, Except.bind, beq_self_eq_true, if_true, elseBranch?]
  cases (forest.elseBranch vocabulary (some o)).value <;> rfl

theorem outcome_plainElse {o : NodeId} (htext : ∃ text, forest.text o = .ok text)
    (hkind : forest.kind o = .ifStatement) :
    (forest.plainElse vocabulary o).outcome =
      .ok ((forest.elseBranch? vocabulary o).filter fun b =>
        !(forest.children b).isEmpty && !forest.beginsWithIf b) := by
  obtain ⟨text, htext⟩ := htext
  simp only [plainElse, readText, outcome_bind, outcome_ofExcept, outcome_demand, outcome_monadLift,
    outcome_pure, htext, hkind, Except.bind, beq_self_eq_true, if_true, elseBranch?]

section IfStatement

variable {o : NodeId} (htext : ∃ text, forest.text o = .ok text)
  (hkind : forest.kind o = .ifStatement)

include htext hkind

theorem elseClause_absent_iff :
    (forest.elseClause vocabulary o).outcome = .ok .absent ↔
      forest.elseBranch? vocabulary o = none := by
  rw [outcome_elseClause htext hkind]
  cases forest.elseBranch? vocabulary o with
  | none => simp
  | some b => by_cases hif : forest.beginsWithIf b = true <;> simp [hif]

theorem elseClause_elseIf_iff :
    (forest.elseClause vocabulary o).outcome = .ok .elseIf ↔
      ∃ b, forest.elseBranch? vocabulary o = some b ∧ forest.beginsWithIf b = true := by
  rw [outcome_elseClause htext hkind]
  cases forest.elseBranch? vocabulary o with
  | none => simp
  | some b => by_cases hif : forest.beginsWithIf b = true <;> simp [hif]

theorem elseClause_plain_iff :
    (forest.elseClause vocabulary o).outcome = .ok .plain ↔
      ∃ b, forest.elseBranch? vocabulary o = some b ∧ forest.beginsWithIf b = false := by
  rw [outcome_elseClause htext hkind]
  cases forest.elseBranch? vocabulary o with
  | none => simp
  | some b => by_cases hif : forest.beginsWithIf b = true <;> simp [hif]

theorem plainElse_some_iff {b : NodeId} :
    (forest.plainElse vocabulary o).outcome = .ok (some b) ↔
      forest.elseBranch? vocabulary o = some b ∧ forest.children b ≠ [] ∧
        forest.beginsWithIf b = false := by
  rw [outcome_plainElse htext hkind, Except.ok.injEq, Option.filter_eq_some_iff]
  simp

theorem plainElse_none_iff :
    (forest.plainElse vocabulary o).outcome = .ok none ↔
      ∀ b, forest.elseBranch? vocabulary o = some b →
        forest.children b = [] ∨ forest.beginsWithIf b = true := by
  rw [outcome_plainElse htext hkind, Except.ok.injEq, Option.filter_eq_none_iff]
  simp [or_iff_not_imp_left]

theorem elseIf_of_beginsWithIf {b : NodeId} (hbranch : forest.elseBranch? vocabulary o = some b)
    (hbegins : forest.beginsWithIf b = true) :
    (forest.elseClause vocabulary o).outcome = .ok .elseIf ∧
      (forest.plainElse vocabulary o).outcome = .ok none := by
  refine ⟨(elseClause_elseIf_iff htext hkind).mpr ⟨b, hbranch, hbegins⟩, ?_⟩
  refine (plainElse_none_iff htext hkind).mpr fun b' hbranch' => ?_
  cases hbranch.symm.trans hbranch'
  exact .inr hbegins

end IfStatement

theorem isElseIf_iff {x : NodeId} :
    (forest.isElseIf vocabulary x).value = true ↔
      ∃ s o, forest.parent? x = some s ∧ forest.kind s = .statement ∧
        forest.parent? s = some o ∧ forest.kind o = .ifStatement ∧
        forest.elseBranch? vocabulary o = some s := by
  rw [isElseIf]
  cases hs : (forest.parent? x).filter fun s => forest.kind s == .statement with
  | none =>
      refine iff_of_false Bool.false_ne_true ?_
      rintro ⟨s, o, hparent, hkind, -⟩
      simp [hparent, Option.filter, hkind] at hs
  | some s =>
      obtain ⟨hparent, hkind⟩ := Option.filter_eq_some_iff.mp hs
      cases ho : (forest.parent? s).filter fun o => forest.kind o == .ifStatement with
      | none =>
          refine iff_of_false (fun h => by simp [ho] at h) ?_
          rintro ⟨s', o, hparent', -, hparent'', hkind'', -⟩
          cases hparent.symm.trans hparent'
          simp [hparent'', Option.filter, hkind''] at ho
      | some o =>
          obtain ⟨hparent', hkind'⟩ := Option.filter_eq_some_iff.mp ho
          simp only [ho, Traced.value_bind, Traced.value_pure, beq_iff_eq]
          constructor
          · intro hbranch
            exact ⟨s, o, hparent, beq_iff_eq.mp hkind, hparent', beq_iff_eq.mp hkind', hbranch⟩
          · rintro ⟨s', o', hs', -, ho', -, hbranch⟩
            cases hparent.symm.trans hs'
            cases hparent'.symm.trans ho'
            exact hbranch

/-! ## Trees with mirrored links -/

namespace MirroredTree

variable {root : NodeId}

/-- The else branch of an if statement of the tree is linked to it. -/
theorem parent?_of_elseBranch? (h : forest.MirroredTree root) {o b : NodeId}
    (ho : forest.InTree root o) (hbranch : forest.elseBranch? vocabulary o = some b) :
    forest.parent? b = some o :=
  h.parent?_eq ho (descends_of_elseBranch? hbranch)

/-- From below, all that is attached to a statement in the place of an else branch is an
`else if`. -/
theorem isElseIf_of_elseBranch? (h : forest.MirroredTree root) {o b x : NodeId}
    (ho : forest.InTree root o) (hkind : forest.kind o = .ifStatement)
    (hbranch : forest.elseBranch? vocabulary o = some b) (hstatement : forest.kind b = .statement)
    (hx : x ∈ forest.children b) : (forest.isElseIf vocabulary x).value = true := by
  have hb : forest.InTree root b := ho.tail (descends_of_elseBranch? hbranch)
  have hparent : forest.parent? x = some b :=
    h.parent?_eq hb ⟨isRule_of_statement hstatement, hx⟩
  exact isElseIf_iff.mpr
    ⟨b, o, hparent, hstatement, h.parent?_of_elseBranch? ho hbranch, hkind, hbranch⟩

/-- The two ways to tell an `else if`, in any tree with mirrored links. First, the else clause of
an if statement is absent exactly if there is no else branch, and it is given as a plain one
exactly if it is plain and not empty. Second, an if statement that comes first below its parent
is an `else if` exactly if the parent is a statement and the else branch of an if statement,
which then has an `else if` for its clause and no plain one. Third, where an else branch is a
statement, the clause is an `else if` exactly if the branch begins with one. -/
theorem else_readings_agree (h : forest.MirroredTree root) (vocabulary : Vocabulary) :
    (∀ o, forest.InTree root o → forest.kind o = .ifStatement →
      (∃ clause, (forest.elseClause vocabulary o).outcome = .ok clause) ∧
      (∃ branch, (forest.plainElse vocabulary o).outcome = .ok branch) ∧
      ((forest.elseClause vocabulary o).outcome = .ok .absent ↔
        forest.elseBranch? vocabulary o = none) ∧
      ∀ b, (forest.plainElse vocabulary o).outcome = .ok (some b) ↔
        (forest.elseClause vocabulary o).outcome = .ok .plain ∧
          forest.elseBranch? vocabulary o = some b ∧ forest.children b ≠ []) ∧
    (∀ x s, forest.InTree root x → forest.kind x = .ifStatement → forest.parent? x = some s →
      (forest.children s).head? = some x →
      ((forest.isElseIf vocabulary x).value = true ↔
        forest.kind s = .statement ∧ ∃ o, forest.InTree root o ∧ forest.kind o = .ifStatement ∧
          forest.elseBranch? vocabulary o = some s) ∧
      ∀ o, forest.InTree root o → forest.kind o = .ifStatement →
        forest.elseBranch? vocabulary o = some s →
        forest.parent? s = some o ∧
          (forest.elseClause vocabulary o).outcome = .ok .elseIf ∧
          (forest.plainElse vocabulary o).outcome = .ok none) ∧
    ∀ o b, forest.InTree root o → forest.kind o = .ifStatement →
      forest.elseBranch? vocabulary o = some b → forest.kind b = .statement →
      ((forest.elseClause vocabulary o).outcome = .ok .elseIf ↔
        ∃ x, (forest.children b).head? = some x ∧ forest.kind x = .ifStatement ∧
          (forest.isElseIf vocabulary x).value = true) := by
  have htext : ∀ {o}, forest.InTree root o → ∃ text, forest.text o = .ok text :=
    fun ho => (h.tree.of_inTree ho).text_ok
  refine ⟨?_, ?_, ?_⟩
  · intro o ho hkind
    refine ⟨⟨_, outcome_elseClause (htext ho) hkind⟩, ⟨_, outcome_plainElse (htext ho) hkind⟩,
      elseClause_absent_iff (htext ho) hkind, fun b => ?_⟩
    rw [plainElse_some_iff (htext ho) hkind, elseClause_plain_iff (htext ho) hkind]
    constructor
    · rintro ⟨hbranch, hchildren, hbegins⟩
      exact ⟨⟨b, hbranch, hbegins⟩, hbranch, hchildren⟩
    · rintro ⟨⟨b', hbranch', hbegins⟩, hbranch, hchildren⟩
      cases hbranch.symm.trans hbranch'
      exact ⟨hbranch, hchildren, hbegins⟩
  · intro x s hx hkind hparent hfirst
    have hbegins : forest.beginsWithIf s = true := beginsWithIf_iff.mpr ⟨x, hfirst, hkind⟩
    obtain ⟨hs, -⟩ := h.descends_of_parent? hx hparent
    refine ⟨?_, ?_⟩
    · constructor
      · intro helseIf
        obtain ⟨s', o, hparent', hstatement, hparent'', houter, hbranch⟩ := isElseIf_iff.mp helseIf
        cases hparent.symm.trans hparent'
        exact ⟨hstatement, o, (h.descends_of_parent? hs hparent'').1, houter, hbranch⟩
      · rintro ⟨hstatement, o, ho, houter, hbranch⟩
        exact h.isElseIf_of_elseBranch? ho houter hbranch hstatement (List.mem_of_head? hfirst)
    · intro o ho houter hbranch
      exact ⟨h.parent?_of_elseBranch? ho hbranch,
        elseIf_of_beginsWithIf (htext ho) houter hbranch hbegins⟩
  · intro o b ho hkind hbranch hstatement
    rw [elseClause_elseIf_iff (htext ho) hkind]
    constructor
    · rintro ⟨b', hbranch', hbegins⟩
      cases hbranch.symm.trans hbranch'
      obtain ⟨x, hfirst, hx⟩ := beginsWithIf_iff.mp hbegins
      exact ⟨x, hfirst, hx,
        h.isElseIf_of_elseBranch? ho hkind hbranch hstatement (List.mem_of_head? hfirst)⟩
    · rintro ⟨x, hfirst, hx, -⟩
      exact ⟨b, hbranch, beginsWithIf_iff.mpr ⟨x, hfirst, hx⟩⟩

/-- The keyword is one that the parser could not place. A terminal comes between it and the
branch, and another statement with an if statement comes behind the branch. -/
theorem else_readings_agree_misplaced :
    let vocabulary := Vocabulary.ofNames [none, some "'else'", some "';'"] []
    let forest : Forest := ⟨#[
      { label := .rule (.ofKind .ifStatement), children := [1, 2, 3, 4] },
      { label := .token ⟨1, "else"⟩ true, parent := some 0 },
      { label := .token ⟨2, ";"⟩ false, parent := some 0 },
      { label := .rule (.ofKind .statement), children := [5], parent := some 0 },
      { label := .rule (.ofKind .statement), children := [6], parent := some 0 },
      { label := .rule (.ofKind .ifStatement), parent := some 3 },
      { label := .rule (.ofKind .ifStatement), parent := some 4 }]⟩
    forest.MirroredTree 0 ∧
      (forest.elseClause vocabulary 0).outcome = .ok .elseIf ∧
      (forest.plainElse vocabulary 0).outcome = .ok none ∧
      (forest.elseClause vocabulary 5).outcome = .ok .absent ∧
      (forest.isElseIf vocabulary 5).value = true ∧
      (forest.isElseIf vocabulary 6).value ≠ true := by
  intro vocabulary forest
  have hmirrored : forest.MirroredTree 0 := by
    have hlinks : ∀ p < 7, ∀ c ∈ forest.children p, forest.parent? c = some p := by decide
    have hleaf : forest.Tree 5 ∧ forest.Tree 6 :=
      ⟨.rule rfl (List.forall_mem_nil _), .rule rfl (List.forall_mem_nil _)⟩
    have hbranch : forest.Tree 3 ∧ forest.Tree 4 :=
      ⟨.rule rfl (List.forall_mem_singleton.mpr hleaf.1),
        .rule rfl (List.forall_mem_singleton.mpr hleaf.2)⟩
    refine .of_links (.rule rfl ?_) rfl hlinks
    show ∀ c ∈ [1, 2, 3, 4], forest.Tree c
    simp only [List.forall_mem_cons]
    exact ⟨.token rfl, .token rfl, hbranch.1, hbranch.2, List.forall_mem_nil _⟩
  have hkeyword : ∀ n, forest.isRule n = true →
      (forest.findTerminal vocabulary (some n) (Vocabulary.inQuotes "else")).value =
        forest.terminalOfType? n 1 := by
    intro n hrule
    rw [value_findTerminal hrule, Vocabulary.tokenType_eq_find?]
    rfl
  have hbranch : forest.elseBranch? vocabulary 0 = some 3 := by
    rw [elseBranch?_eq rfl, hkeyword 0 rfl]
    rfl
  have hin : ∀ {p c}, forest.InTree 0 p → forest.Descends p c → forest.InTree 0 c :=
    Relation.ReflTransGen.tail
  have hroot : forest.InTree 0 0 := .refl
  have hfirst : forest.InTree 0 5 := hin (hin hroot ⟨rfl, (by decide : 3 ∈ [1, 2, 3, 4])⟩)
    ⟨rfl, List.mem_singleton_self 5⟩
  have hsecond : forest.InTree 0 6 := hin (hin hroot ⟨rfl, (by decide : 4 ∈ [1, 2, 3, 4])⟩)
    ⟨rfl, List.mem_singleton_self 6⟩
  obtain ⟨hclauses, hbelow, -⟩ := else_readings_agree hmirrored vocabulary
  obtain ⟨helseIf, hlinked⟩ := hbelow 5 3 hfirst rfl rfl rfl
  obtain ⟨helseIf', hlinked'⟩ := hbelow 6 4 hsecond rfl rfl rfl
  refine ⟨hmirrored, (hlinked 0 hroot rfl hbranch).2.1, (hlinked 0 hroot rfl hbranch).2.2, ?_,
    helseIf.mpr ⟨rfl, 0, hroot, rfl, hbranch⟩, fun h => ?_⟩
  · refine (hclauses 5 hfirst rfl).2.2.1.mpr ?_
    rw [elseBranch?_eq rfl, hkeyword 5 rfl]
    rfl
  · obtain ⟨-, o, ho, houter, hother⟩ := helseIf'.mp h
    cases (hlinked' o ho houter hother).1
    cases hbranch.symm.trans hother

end MirroredTree

end Forest

end SolidityLint
