import SolidityLint.Proofs.Alike

/-!
# Trees of a generated parser

The checks are run on two sorts of trees. Those built here have labels that declare
the kind of their nodes. Those that a generated parser makes have labels from
elsewhere, which declare nothing, and their kind is read off the name: the ending is
taken away, if it is there, and the rest is looked up among the names of the kinds.

Both ways lead to the same kind, because no kind shares its name with another one and
the name of no kind has the ending itself. The name of the rule is decided by the kind
wherever the kind is a rule, so it is the same too, and that is all that a query can
see of a rule node. So a tree and its copy with such labels are `Alike` under any one
vocabulary. Only the two questions for the rule that a label itself stands for can
tell them apart.
-/

namespace SolidityLint

/-! ## Labels -/

/-- The labels that a generated parser gives to nodes of a kind. -/
inductive RuleLabel.Generated (kind : Kind) : RuleLabel → Prop where
  | bare : Generated kind ⟨kind.name, none, false⟩
  | ended : Generated kind ⟨kind.name ++ RuleLabel.ending, none, false⟩

theorem Text.withoutSuffix_append (text suffix : String) :
    withoutSuffix (text ++ suffix) suffix = text := by
  have hsuffix : suffix.toList.isSuffixOf (text ++ suffix).toList = true := by
    rw [String.toList_append, List.isSuffixOf_iff_suffix]
    exact List.suffix_append _ _
  have htake : (text ++ suffix).toList.take ((text ++ suffix).length - suffix.length) =
      text.toList := by
    rw [String.toList_append, String.length_append, Nat.add_sub_cancel, ← String.length_toList,
      List.take_left]
  rw [withoutSuffix, if_pos hsuffix, htake, String.ofList_toList]

theorem Kind.withoutSuffix_name (kind : Kind) :
    Text.withoutSuffix kind.name RuleLabel.ending = kind.name := by
  cases kind <;> decide +kernel

theorem Kind.ofName?_name (kind : Kind) : Kind.ofName? kind.name = some kind := by
  cases kind <;> decide +kernel

theorem RuleLabel.Generated.kind_eq {kind : Kind} {label : RuleLabel}
    (h : label.Generated kind) : label.kind = kind := by
  have hstem : label.stem = kind.name := by
    cases h with
    | bare => exact kind.withoutSuffix_name
    | ended => exact Text.withoutSuffix_append kind.name ending
  have hdeclared : label.declared = none := by cases h <;> rfl
  rw [RuleLabel.kind, hdeclared, hstem, Kind.ofName?_name]
  rfl

/-- Where the kind is a rule, the name of the rule does not come from the label. -/
theorem RuleLabel.Generated.ruleName_eq {kind : Kind} {label : RuleLabel}
    (h : label.Generated kind) (hrule : kind.isRule = true) :
    label.ruleName = (ofKind kind).ruleName := by
  have hname : ∀ other : RuleLabel, other.kind = kind →
      other.ruleName = Text.camelCase kind.name := by
    intro other hother
    rw [RuleLabel.ruleName, hother, Kind.ruleName?, if_pos hrule]
    rfl
  rw [hname label h.kind_eq, hname (ofKind kind) rfl]

/-! ## Copies -/

/-- A label and the one that it has in the copy. -/
inductive Label.Copied : Label → Label → Prop where
  | rule {kind : Kind} {label : RuleLabel} (hrule : kind.isRule = true)
      (h : label.Generated kind) : Copied (.rule (.ofKind kind)) (.rule label)
  | token (token : Token) (erroneous : Bool) :
      Copied (.token token erroneous) (.token token erroneous)

/-- A node and its copy, which has the links to the copies of the same nodes. -/
structure Node.Copied (a b : Node) : Prop where
  label : a.label.Copied b.label
  children : a.children = b.children
  parent : a.parent = b.parent

/-- The second forest holds copies of the nodes of the first one, with labels of a
generated parser. The nodes of the first one are tokens and nodes of rules; which of
the two names a copy has is open for each node. -/
def Forest.GeneratedCopy (f g : Forest) : Prop :=
  ∀ n, Option.Rel Node.Copied (f.node? n) (g.node? n)

theorem Vocabulary.TypesAlike.refl (vocabulary : Vocabulary) (type : Int) :
    vocabulary.TypesAlike vocabulary type type :=
  ⟨fun _ _ => Iff.rfl, rfl⟩

theorem Label.Copied.alike {a b : Label} (h : a.Copied b) (vocabulary : Vocabulary) :
    Label.Alike vocabulary vocabulary a b := by
  cases h with
  | rule hrule h => exact .rule h.kind_eq.symm (h.ruleName_eq hrule).symm
  | token token erroneous => exact .token token.text erroneous (.refl vocabulary token.type)

namespace Forest.GeneratedCopy

variable {f g : Forest}

theorem node?_cases (h : GeneratedCopy f g) (n : NodeId) :
    (f.node? n = none ∧ g.node? n = none) ∨
      ∃ a b, f.node? n = some a ∧ g.node? n = some b ∧ a.Copied b :=
  option_rel_cases (h n)

theorem alike (h : GeneratedCopy f g) (vocabulary : Vocabulary) :
    Forest.Alike vocabulary vocabulary f g := by
  intro n
  rcases h.node?_cases n with ⟨hf, hg⟩ | ⟨a, b, hf, hg, hnode⟩ <;> rw [hf, hg]
  · exact .none
  · exact .some ⟨hnode.label.alike vocabulary, hnode.children, hnode.parent⟩

theorem token?_eq (h : GeneratedCopy f g) (n : NodeId) : f.token? n = g.token? n := by
  rw [token?, token?, label?, label?]
  rcases h.node?_cases n with ⟨hf, hg⟩ | ⟨⟨x, _, _⟩, ⟨y, _, _⟩, hf, hg, hnode⟩ <;> rw [hf, hg]
  cases hnode.label <;> rfl

theorem tokenType_eq (h : GeneratedCopy f g) (node : Option NodeId) :
    f.tokenType node = g.tokenType node := by
  rw [tokenType, tokenType, funext h.token?_eq]

/-- A tree and its copy with labels of a generated parser are told apart by no question
but those for the number and the name that a label gives to its rule: every other
question about any node, present or absent, has the same answer with every vocabulary,
or the same fault, and the same events. The nodes in answers are the copies of each
other, and questions about several entries of a modifier list are answered alike. -/
theorem indistinguishable (h : GeneratedCopy f g) (vocabulary : Vocabulary) :
    (∀ (node : Option NodeId) (question : Question),
        question ≠ .ruleIndex → question ≠ .ruleName →
        f.ask vocabulary node question = g.ask vocabulary node question) ∧
      (∀ entries, f.isPayable vocabulary entries = g.isPayable vocabulary entries) ∧
      (∀ entries, f.isReadOnly vocabulary entries = g.isReadOnly vocabulary entries) := by
  have halike := h.alike vocabulary
  have hliterals : vocabulary.SameLiterals vocabulary := fun _ => Iff.rfl
  refine ⟨fun node question hindex hname => ?_, ?_, ?_⟩
  · by_cases htype : question = .tokenType
    · rw [htype, ask, ask, h.tokenType_eq]
    · exact halike.ask_eq hliterals node hindex hname htype
  · exact congrFun (halike.isPayable_eq hliterals)
  · exact congrFun (halike.isReadOnly_eq hliterals)

/-- An `else if` whose three rule nodes have their two names in the copy: the outer one
without the ending, the branch and the inner one with it. -/
theorem indistinguishable_elseIf :
    let vocabulary := Vocabulary.ofNames [none, some "'else'"] []
    let f : Forest := ⟨#[{ label := .rule (.ofKind .ifStatement), children := [1, 2] },
      { label := .token ⟨1, "else"⟩ false, parent := some 0 },
      { label := .rule (.ofKind .statement), children := [3], parent := some 0 },
      { label := .rule (.ofKind .ifStatement), parent := some 2 }]⟩
    let g : Forest := ⟨#[{ label := .rule ⟨"IfStatement", none, false⟩, children := [1, 2] },
      { label := .token ⟨1, "else"⟩ false, parent := some 0 },
      { label := .rule ⟨"StatementContext", none, false⟩, children := [3], parent := some 0 },
      { label := .rule ⟨"IfStatementContext", none, false⟩, parent := some 2 }]⟩
    GeneratedCopy f g ∧
      f.ask vocabulary (some 0) .elseClause = g.ask vocabulary (some 0) .elseClause ∧
      f.ask vocabulary (some 3) .isElseIf = g.ask vocabulary (some 3) .isElseIf ∧
      f.ask vocabulary (some 0) .document = g.ask vocabulary (some 0) .document := by
  intro vocabulary f g
  have hstatement : RuleLabel.Generated .statement ⟨"StatementContext", none, false⟩ := by
    have hname : "StatementContext" = Kind.statement.name ++ RuleLabel.ending := by decide +kernel
    exact hname ▸ .ended
  have hif : RuleLabel.Generated .ifStatement ⟨"IfStatementContext", none, false⟩ := by
    have hname : "IfStatementContext" = Kind.ifStatement.name ++ RuleLabel.ending := by
      decide +kernel
    exact hname ▸ .ended
  have hcopy : GeneratedCopy f g
    | 0 => .some ⟨.rule rfl .bare, rfl, rfl⟩
    | 1 => .some ⟨.token _ _, rfl, rfl⟩
    | 2 => .some ⟨.rule rfl hstatement, rfl, rfl⟩
    | 3 => .some ⟨.rule rfl hif, rfl, rfl⟩
    | n + 4 => .none
  obtain ⟨hask, -, -⟩ := hcopy.indistinguishable vocabulary
  exact ⟨hcopy, hask _ _ (nomatch ·) (nomatch ·), hask _ _ (nomatch ·) (nomatch ·),
    hask _ _ (nomatch ·) (nomatch ·)⟩

end Forest.GeneratedCopy

end SolidityLint
