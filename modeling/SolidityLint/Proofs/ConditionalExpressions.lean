import SolidityLint.Proofs.Parentheses

/-!
# Conditional expressions in statements

A statement is asked for a conditional expression by way of the expression that it returns or
initializes a variable with, and of that expression only the children are looked at. So there
are two questions, and they meet in one node: which expression a statement states, and whether
that one has a question mark of its own.

The first has the same answer for both shapes of statements, although the way down is longer
for a declaration. On the way stand terminals, which are no expressions, and the declaration,
which must not be one. What the expression holds does not matter, and neither does it what it
was built from. The second is answered by labels alone, those of a node and of its children. An
expression in parentheses has three children, of which one is an expression and two are no
question marks, and so it hides what is inside.

Both answers depend on nothing but the tree below the first child of the statement. That is
shown for two forests at once, with the same tree in both (`SameTree`), because the other
children are then free to differ in any way.
-/

namespace SolidityLint

open Checked

/-- A statement that returns what is sketched. -/
def Sketch.returning (expression : Sketch) : Sketch :=
  .rule .statement [.rule .returnStatement [.text "return", expression, .text ";"]]

/-- A statement that initializes a variable with what is sketched. -/
def Sketch.declaring (declaration : NodeId) (expression : Sketch) : Sketch :=
  .rule .statement [.rule .simpleStatement [.rule .variableDeclarationStatement
    [.existing (.ok (some declaration)), .text "=", expression, .text ";"]]]

/-- An expression in parentheses. -/
def Sketch.parenthesizing (expression : Sketch) : Sketch :=
  .rule .expression [.text "(", expression, .text ")"]

namespace Forest

variable {forest : Forest} {vocabulary : Vocabulary}

/-! ## Terminals among the children -/

theorem value_hasTerminal_iff {n : NodeId} (hrule : forest.isRule n = true) {literal : String} :
    (forest.hasTerminal vocabulary (some n) literal).value = true ↔
      literal ∈ vocabulary.literalNames ∧ ∃ c ∈ forest.children n, ∃ token,
        forest.token? c = some token ∧ token.type = vocabulary.tokenType literal := by
  rw [hasTerminal, Traced.value_bind, Traced.value_pure, value_findTerminal hrule,
    Vocabulary.mem_literalNames_iff]
  split
  · next hinvalid => simp [hinvalid]
  · next hvalid => simp [terminalOfType?, hvalid, Option.any_eq_true]

theorem find?_rel {α β : Type} {R : α → β → Prop} {p : α → Bool} {q : β → Bool}
    (hpq : ∀ {a b}, R a b → p a = q b) {as : List α} {bs : List β} (h : List.Forall₂ R as bs) :
    Option.Rel R (as.find? p) (bs.find? q) := by
  induction h with
  | nil => exact .none
  | @cons a b as bs hab _ ih =>
      rw [List.find?_cons, List.find?_cons, ← hpq hab]
      cases p a with
      | true => exact .some hab
      | false => exact ih

/-- What is a terminal is read off the labels of a node and of its children. -/
theorem hasTerminal_eq {f g : Forest} {n m : NodeId} (hlabel : f.label? n = g.label? m)
    (hchildren : List.Forall₂ (fun c d => f.label? c = g.label? d) (f.children n) (g.children m))
    (literal : String) :
    f.hasTerminal vocabulary (some n) literal = g.hasTerminal vocabulary (some m) literal := by
  have hrule : f.isRule n = g.isRule m := by
    rw [isRule, isRule, ruleLabel?, ruleLabel?, hlabel]
  have hfound : ∀ type : Int,
      (f.terminalOfType? n type).isSome = (g.terminalOfType? m type).isSome := by
    intro type
    have hrel : Option.Rel _ (f.terminalOfType? n type) (g.terminalOfType? m type) :=
      find?_rel (fun hcd => by rw [token?, token?, hcd]) hchildren
    rcases option_rel_cases hrel with ⟨hf, hg⟩ | ⟨c, d, hf, hg, -⟩
    · rw [hf, hg]
    · rw [hf, hg]
      rfl
  rw [hasTerminal, hasTerminal, findTerminal, findTerminal, Option.filter, Option.filter, hrule]
  cases g.isRule m with
  | false => rfl
  | true =>
      refine Traced.ext ?_ rfl
      simp only [if_true, Traced.value_bind, Traced.value_pure]
      split
      · rfl
      · exact hfound _

theorem Extends.hasTerminal_eq {before after : Forest} (hextends : Extends before after)
    {n : NodeId} (hn : n < before.size) (hchildren : ∀ c ∈ before.children n, c < before.size)
    (literal : String) :
    after.hasTerminal vocabulary (some n) literal =
      before.hasTerminal vocabulary (some n) literal := by
  refine Forest.hasTerminal_eq (hextends.label?_eq n hn) ?_ literal
  rw [hextends.children_eq n hn, List.forall₂_same]
  exact fun c hc => hextends.label?_eq c (hchildren c hc)

/-! ## The expression that is stated -/

/-- The expression that a statement states with its first child. -/
def heldExpression? (forest : Forest) (inner : NodeId) : Option NodeId :=
  if forest.kind inner = .returnStatement then forest.firstChild? (some inner) .expression
  else if forest.kind inner = .simpleStatement then
    forest.firstChild? (forest.firstChild? (some inner) .variableDeclarationStatement) .expression
  else none

theorem statedExpression?_eq (forest : Forest) (node : Option NodeId) :
    forest.statedExpression? node =
      (node.filter fun n => forest.kind n == .statement).bind fun n =>
        (forest.children n).head?.bind forest.heldExpression? := by
  refine Option.bind_congr fun n _ => Option.bind_congr fun inner _ => ?_
  rw [heldExpression?]
  split
  · next hkind => rw [if_pos hkind]
  · next hkind =>
      rw [if_neg (by rw [hkind]; decide), if_pos hkind]
  · next hreturn hsimple => rw [if_neg hreturn, if_neg hsimple]

theorem statedExpression?_of_statement {s first : NodeId} (hkind : forest.kind s = .statement)
    (hfirst : (forest.children s).head? = some first) :
    forest.statedExpression? (some s) = forest.heldExpression? first := by
  simp only [statedExpression?_eq, Option.filter, hkind, beq_self_eq_true, if_true, hfirst,
    Option.bind_some]

theorem isTernary_of_stated {node : Option NodeId} {e : NodeId}
    (h : forest.statedExpression? node = some e) (vocabulary : Vocabulary) :
    forest.isTernary vocabulary node =
      forest.hasTerminal vocabulary (some e) (Vocabulary.inQuotes "?") := by
  rw [isTernary, h]

/-- What a conditional expression is found in. -/
theorem shape_of_isTernary {node : Option NodeId}
    (h : (forest.isTernary vocabulary node).value = true) :
    ∃ s first, node = some s ∧ forest.kind s = .statement ∧
      (forest.children s).head? = some first ∧
      (forest.kind first = .returnStatement ∨ forest.kind first = .simpleStatement) := by
  cases hstated : forest.statedExpression? node with
  | none =>
      rw [isTernary, hstated] at h
      cases h
  | some e =>
      rw [statedExpression?_eq, Option.bind_eq_some_iff] at hstated
      obtain ⟨s, hs, hstated⟩ := hstated
      obtain ⟨first, hfirst, hheld⟩ := Option.bind_eq_some_iff.mp hstated
      obtain ⟨rfl, hkind⟩ := Option.filter_eq_some_iff.mp hs
      refine ⟨s, first, rfl, beq_iff_eq.mp hkind, hfirst, ?_⟩
      rw [heldExpression?] at hheld
      split at hheld
      · next hreturn => exact .inl hreturn
      · split at hheld
        · next hsimple => exact .inr hsimple
        · cases hheld

/-! ## Same trees, same answers -/

section SameTree

variable {f g : Forest} {n m : NodeId}

theorem SameTree.label?_eq (h : SameTree f g n m) : f.label? n = g.label? m := by
  cases h with
  | node hf hg _ => rw [hf, hg]

theorem SameTree.children (h : SameTree f g n m) :
    List.Forall₂ (SameTree f g) (f.children n) (g.children m) := by
  cases h with
  | node _ _ hchildren => exact hchildren

theorem SameTree.kind_eq (h : SameTree f g n m) : f.kind n = g.kind m := by
  rw [kind, kind, h.label?_eq]

theorem firstChild?_rel {a b : Option NodeId} (h : Option.Rel (SameTree f g) a b) (kind : Kind) :
    Option.Rel (SameTree f g) (f.firstChild? a kind) (g.firstChild? b kind) := by
  have hchildren : List.Forall₂ (SameTree f g) (f.ruleChildren a) (g.ruleChildren b) := by
    rcases option_rel_cases h with ⟨rfl, rfl⟩ | ⟨n, m, rfl, rfl, hnm⟩
    · exact .nil
    · have hrule : f.isRule n = g.isRule m := by
        rw [isRule, isRule, ruleLabel?, ruleLabel?, hnm.label?_eq]
      rw [ruleChildren, ruleChildren, Option.filter, Option.filter, hrule]
      cases g.isRule m with
      | false => exact .nil
      | true => exact hnm.children
  exact find?_rel (fun hcd => by rw [hcd.kind_eq]) hchildren

theorem SameTree.heldExpression?_rel (h : SameTree f g n m) :
    Option.Rel (SameTree f g) (f.heldExpression? n) (g.heldExpression? m) := by
  rw [heldExpression?, heldExpression?, h.kind_eq]
  split
  · exact firstChild?_rel (.some h) _
  · split
    · exact firstChild?_rel (firstChild?_rel (.some h) _) _
    · exact .none

/-- Of a statement nothing counts but its kind and the tree of its first child. -/
theorem isTernary_eq_of_head? (hkind : f.kind n = g.kind m)
    (hfirst : Option.Rel (SameTree f g) (f.children n).head? (g.children m).head?)
    (vocabulary : Vocabulary) :
    f.isTernary vocabulary (some n) = g.isTernary vocabulary (some m) := by
  have hstated : Option.Rel (SameTree f g) (f.statedExpression? (some n))
      (g.statedExpression? (some m)) := by
    rw [statedExpression?_eq, statedExpression?_eq, Option.filter, Option.filter, hkind]
    cases g.kind m == .statement with
    | false => exact .none
    | true =>
        rcases option_rel_cases hfirst with ⟨hf, hg⟩ | ⟨c, d, hf, hg, hcd⟩
        · simp only [if_true, Option.bind_some, hf, hg]
          exact .none
        · simp only [if_true, Option.bind_some, hf, hg]
          exact hcd.heldExpression?_rel
  rcases option_rel_cases hstated with ⟨hf, hg⟩ | ⟨e, e', hf, hg, hsame⟩
  · rw [isTernary, isTernary, hf, hg]
  · rw [isTernary_of_stated hf, isTernary_of_stated hg]
    exact hasTerminal_eq hsame.label?_eq (hsame.children.imp fun _ _ => SameTree.label?_eq) _

end SameTree

/-! ## Statements that are built -/

/-- A node of a kind, with parts for its children. -/
structure Made (forest : Forest) (vocabulary : Vocabulary) (kind : Kind) (parts : List Part)
    (n : NodeId) : Prop where
  kind_eq : forest.kind n = kind
  kind_isRule : kind.isRule = true
  attached : List.Forall₂ (forest.AttachedAs vocabulary 0) parts (forest.children n)

section Made

variable {kind : Kind} {parts : List Part} {n : NodeId}

theorem Made.isRule (h : forest.Made vocabulary kind parts n) : forest.isRule n = true :=
  isRule_of_kind (by rw [h.kind_eq, h.kind_isRule])

theorem Made.lt_size (h : forest.Made vocabulary kind parts n) : n < forest.size :=
  lt_size_of_isRule h.isRule

theorem Made.mono {before after : Forest} (hextends : Extends before after)
    (h : before.Made vocabulary kind parts n) : after.Made vocabulary kind parts n := by
  refine ⟨(hextends.kind_eq h.lt_size).trans h.kind_eq, h.kind_isRule, ?_⟩
  rw [hextends.children_eq n h.lt_size]
  exact h.attached.imp fun _ _ => AttachedAs.mono hextends (Nat.le_refl _)

end Made

theorem AttachedAs.kind_eq {bound n : NodeId} {text : String}
    (h : forest.AttachedAs vocabulary bound (.text text) n) : forest.kind n = .terminal := by
  cases h with
  | text _ hlabel _ =>
      rw [kind, hlabel]
      rfl

section Children

variable {kind sought : Kind} {n m : NodeId} {back : List Part}

theorem Made.head?_eq (h : forest.Made vocabulary kind (.node (some n) :: back) m) :
    (forest.children m).head? = some n := by
  obtain ⟨c, rest, hattached, -, hchildren⟩ := List.forall₂_cons_left_iff.mp h.attached
  cases hattached
  rw [hchildren, List.head?_cons]

/-- The first child of a kind is the node that was put there, if no part in front of it became one
of that kind. -/
theorem Made.firstChild?_eq (front : List Part)
    (h : forest.Made vocabulary kind (front ++ .node (some n) :: back) m)
    (hfront : ∀ part ∈ front, ∀ c, forest.AttachedAs vocabulary 0 part c → forest.kind c ≠ sought)
    (hn : forest.kind n = sought) : forest.firstChild? (some m) sought = some n := by
  obtain ⟨before, _, hchildren, hbefore, hbehind⟩ := exists_append_of_append h.attached
  obtain ⟨c, after, hattached, -, rfl⟩ := List.forall₂_cons_left_iff.mp hbehind
  cases hattached
  have hnone : before.find? (fun child => forest.kind child == sought) = none := by
    refine List.find?_eq_none.mpr fun c hc heq => ?_
    obtain ⟨part, hpart, hattached⟩ := exists_of_mem_right hbefore c hc
    exact hfront part hpart c hattached (beq_iff_eq.mp heq)
  simp only [firstChild?, ruleChildren, Option.filter, h.isRule, if_true, hchildren,
    List.find?_append, hnone, Option.none_or]
  exact List.find?_cons_of_pos (beq_iff_eq.mpr hn)

end Children

theorem exists_plant_rule (kind : Kind) (hkind : kind.isRule = true) {sketches : List Sketch}
    {middle : Forest} {parts : List Part}
    (hparts : plantAll vocabulary forest sketches = (middle, .ok parts))
    (hspelled : ∀ part ∈ parts, part.Spelled vocabulary middle) :
    ∃ after n, plant vocabulary forest (.rule kind sketches) = (after, .ok (.node (some n))) ∧
      Extends middle after ∧ after.Made vocabulary kind parts n := by
  obtain ⟨after, hgrow, hgrown⟩ := exists_grow kind hkind hspelled
  refine ⟨after, middle.size, ?_, hgrown.extended, hgrown.kind_size, hkind, ?_⟩
  · simp only [plant, hparts, hgrow, asPart]
  · exact hgrown.attached.imp fun _ _ => AttachedAs.mono (.refl after) (Nat.zero_le _)

theorem exists_plant_around (kind : Kind) (hkind : kind.isRule = true) {sketch : Sketch}
    {middle : Forest} {n : NodeId} (hn : n < middle.size)
    (hsketch : plant vocabulary forest sketch = (middle, .ok (.node (some n)))) :
    ∃ after m, plant vocabulary forest (.rule kind [sketch]) = (after, .ok (.node (some m))) ∧
      Extends middle after ∧ after.Made vocabulary kind [.node (some n)] m := by
  refine exists_plant_rule kind hkind ?_ (List.forall_mem_singleton.mpr (.node hn))
  simp only [plantAll, hsketch]

/-- A sketched statement can be built, and from then on states an expression that was there. -/
def StatesWhenBuilt (forest middle : Forest) (vocabulary : Vocabulary) (sketch : Sketch)
    (e : NodeId) : Prop :=
  ∃ after s, plant vocabulary forest sketch = (after, .ok (.node (some s))) ∧
    Extends middle after ∧
    ∀ later, Extends after later → later.statedExpression? (some s) = some e

section Stated

variable {sketch : Sketch} {middle : Forest} {e : NodeId}
  (hliterals : vocabulary.Spells ["return", "=", ";"])
  (hsketch : plant vocabulary forest sketch = (middle, .ok (.node (some e))))
  (hkind : middle.kind e = .expression)

include hliterals hsketch hkind

theorem statesWhenBuilt_returning :
    StatesWhenBuilt forest middle vocabulary (.returning sketch) e := by
  have he : e < middle.size := lt_size_of_isRule (isRule_of_expression hkind)
  have hparts : plantAll vocabulary forest [.text "return", sketch, .text ";"] =
      (middle, .ok [.text "return", .node (some e), .text ";"]) := by
    simp only [plantAll, plant, hsketch]
  have hspelled : ∀ part ∈ [.text "return", .node (some e), .text ";"],
      Part.Spelled vocabulary middle part := by
    simp only [List.forall_mem_cons]
    exact ⟨.literal (hliterals _ (by simp)), .node he, .literal (hliterals _ (by simp)),
      List.forall_mem_nil _⟩
  obtain ⟨inside, r, hreturn, hinside, hr⟩ := exists_plant_rule .returnStatement rfl hparts hspelled
  obtain ⟨after, s, hstatement, hafter, hs⟩ := exists_plant_around .statement rfl hr.lt_size hreturn
  refine ⟨after, s, hstatement, hinside.trans hafter, fun later hlater => ?_⟩
  have hs := hs.mono hlater
  have hr := hr.mono (hafter.trans hlater)
  have he : later.kind e = .expression :=
    (((hinside.trans hafter).trans hlater).kind_eq he).trans hkind
  rw [statedExpression?_of_statement hs.kind_eq hs.head?_eq, heldExpression?, if_pos hr.kind_eq]
  refine hr.firstChild?_eq [.text "return"] (List.forall_mem_singleton.mpr fun c hc => ?_) he
  rw [hc.kind_eq]
  decide

theorem statesWhenBuilt_declaring {d : NodeId} (hd : d < middle.size)
    (hdeclaration : middle.kind d ≠ .expression) :
    StatesWhenBuilt forest middle vocabulary (.declaring d sketch) e := by
  have he : e < middle.size := lt_size_of_isRule (isRule_of_expression hkind)
  have hparts : plantAll vocabulary forest
      [.existing (.ok (some d)), .text "=", sketch, .text ";"] =
        (middle, .ok [.node (some d), .text "=", .node (some e), .text ";"]) := by
    simp only [plantAll, plant, hsketch, Except.map]
  have hspelled : ∀ part ∈ [.node (some d), .text "=", .node (some e), .text ";"],
      Part.Spelled vocabulary middle part := by
    simp only [List.forall_mem_cons]
    exact ⟨.node hd, .literal (hliterals _ (by simp)), .node he, .literal (hliterals _ (by simp)),
      List.forall_mem_nil _⟩
  obtain ⟨inside, v, hvariable, hinside, hv⟩ :=
    exists_plant_rule .variableDeclarationStatement rfl hparts hspelled
  obtain ⟨around, m, hsimple, haround, hm⟩ :=
    exists_plant_around .simpleStatement rfl hv.lt_size hvariable
  obtain ⟨after, s, hstatement, hafter, hs⟩ := exists_plant_around .statement rfl hm.lt_size hsimple
  have hwhole := (hinside.trans haround).trans hafter
  refine ⟨after, s, hstatement, hwhole, fun later hlater => ?_⟩
  have hs := hs.mono hlater
  have hm := hm.mono (hafter.trans hlater)
  have hv := hv.mono ((haround.trans hafter).trans hlater)
  have he : later.kind e = .expression := ((hwhole.trans hlater).kind_eq he).trans hkind
  have hd : later.kind d ≠ .expression := by rwa [(hwhole.trans hlater).kind_eq hd]
  rw [statedExpression?_of_statement hs.kind_eq hs.head?_eq, heldExpression?,
    if_neg (by rw [hm.kind_eq]; decide), if_pos hm.kind_eq,
    hm.firstChild?_eq [] (List.forall_mem_nil _) hv.kind_eq]
  -- Only here does something stand in front of what is searched for.
  refine hv.firstChild?_eq [.node (some d), .text "="] ?_ he
  simp only [List.forall_mem_cons]
  refine ⟨fun c hc => ?_, fun c hc => ?_, List.forall_mem_nil _⟩
  · cases hc
    exact hd
  · rw [hc.kind_eq]
    decide

end Stated

/-! ## Parentheses hide -/

section Parentheses

variable {n e : NodeId} (h : forest.Made vocabulary .expression (wrappedParts e) n)
  (he : forest.isRule e = true)

include h he

theorem Made.children_lt : ∀ c ∈ forest.children n, c < forest.size := by
  intro c hc
  obtain ⟨part, hpart, hattached⟩ := exists_of_mem_right h.attached c hc
  cases hattached with
  | text _ hlabel _ => exact lt_size_of_label? hlabel
  | node _ =>
      rw [node_mem_wrappedParts.mp hpart]
      exact lt_size_of_isRule he

theorem Made.value_hasTerminal (hliterals : vocabulary.Spells ["(", ")"]) :
    (forest.hasTerminal vocabulary (some n) (Vocabulary.inQuotes "?")).value = false := by
  refine Bool.eq_false_iff.mpr fun htrue => ?_
  obtain ⟨-, c, hc, token, htoken, htype⟩ :=
    (value_hasTerminal_iff (isRule_of_expression h.kind_eq)).mp htrue
  obtain ⟨part, hpart, hattached⟩ := exists_of_mem_right h.attached c hc
  simp only [wrappedParts, List.mem_cons, List.not_mem_nil, or_false] at hpart
  rcases hpart with rfl | rfl | rfl
  · exact hattached.type_ne (hliterals _ (by simp)) (by decide) htoken htype
  · cases hattached
    rw [token?_eq_none he] at htoken
    cases htoken
  · exact hattached.type_ne (hliterals _ (by simp)) (by decide) htoken htype

end Parentheses

/-! ## Both shapes -/

/-- A sketched statement can be built, and from then on it is said to have a conditional expression
exactly if something holds. -/
def AnswersTernary (forest : Forest) (vocabulary : Vocabulary) (sketch : Sketch) (holds : Prop) :
    Prop :=
  ∃ after s, plant vocabulary forest sketch = (after, .ok (.node (some s))) ∧
    ∀ later, Extends after later →
      ((later.isTernary vocabulary (some s)).value = true ↔ holds)

theorem answersTernary_of_plant {sketch : Sketch} {middle : Forest} {e d : NodeId}
    (hliterals : vocabulary.Spells ["return", "=", ";"])
    (hsketch : plant vocabulary forest sketch = (middle, .ok (.node (some e))))
    (hkind : middle.kind e = .expression) (hchildren : ∀ c ∈ middle.children e, c < middle.size)
    (hd : d < middle.size) (hdeclaration : middle.kind d ≠ .expression) :
    ∀ statement ∈ [Sketch.returning, .declaring d],
      forest.AnswersTernary vocabulary (statement sketch)
        ((middle.hasTerminal vocabulary (some e) (Vocabulary.inQuotes "?")).value = true) := by
  have he : e < middle.size := lt_size_of_isRule (isRule_of_expression hkind)
  intro statement hstatement
  obtain ⟨after, s, hplant, hafter, hstated⟩ :
      StatesWhenBuilt forest middle vocabulary (statement sketch) e := by
    rcases List.mem_pair.mp hstatement with rfl | rfl
    · exact statesWhenBuilt_returning hliterals hsketch hkind
    · exact statesWhenBuilt_declaring hliterals hsketch hkind hd hdeclaration
  refine ⟨after, s, hplant, fun later hlater => ?_⟩
  rw [isTernary_of_stated (hstated later hlater),
    (hafter.trans hlater).hasTerminal_eq he hchildren]

/-- In both shapes of statements a conditional expression is found exactly if the expression has a
question mark among its children, and in parentheses it is not found. In any forest it is found
only in statements that begin with a return or a simple statement, and nothing behind the first
child matters, not even for what is reported. -/
theorem isTernary_exact :
    (∀ (vocabulary : Vocabulary) (forest : Forest) (e d : NodeId),
      vocabulary.Spells ["return", "=", ";"] → forest.kind e = .expression →
      (∀ c ∈ forest.children e, c < forest.size) →
      d < forest.size → forest.kind d ≠ .expression →
      ∀ statement ∈ [Sketch.returning, .declaring d],
        forest.AnswersTernary vocabulary (statement (.existing (.ok (some e))))
          (Vocabulary.inQuotes "?" ∈ vocabulary.literalNames ∧ ∃ c ∈ forest.children e, ∃ token,
            forest.token? c = some token ∧
            token.type = vocabulary.tokenType (Vocabulary.inQuotes "?")) ∧
        (vocabulary.Spells ["(", ")"] →
          forest.AnswersTernary vocabulary
            (statement (.parenthesizing (.existing (.ok (some e))))) False)) ∧
    (∀ (vocabulary : Vocabulary) (forest : Forest) (node : Option NodeId),
      (forest.isTernary vocabulary node).value = true →
      ∃ s first, node = some s ∧ forest.kind s = .statement ∧
        (forest.children s).head? = some first ∧
        (forest.kind first = .returnStatement ∨ forest.kind first = .simpleStatement)) ∧
    ∀ (vocabulary : Vocabulary) (f g : Forest) (s t : NodeId), f.kind s = g.kind t →
      Option.Rel (SameTree f g) (f.children s).head? (g.children t).head? →
      f.isTernary vocabulary (some s) = g.isTernary vocabulary (some t) := by
  refine ⟨?_, fun _ _ _ => shape_of_isTernary,
    fun vocabulary _ _ _ _ hkind hfirst => isTernary_eq_of_head? hkind hfirst vocabulary⟩
  intro vocabulary forest e d hliterals hkind hchildren hd hdeclaration statement hstatement
  have hrule := isRule_of_expression hkind
  have he : e < forest.size := lt_size_of_isRule hrule
  constructor
  · rw [← value_hasTerminal_iff hrule]
    exact answersTernary_of_plant hliterals rfl hkind hchildren hd hdeclaration statement hstatement
  · intro hparentheses
    have hparts : plantAll vocabulary forest
        [.text "(", .existing (.ok (some e)), .text ")"] = (forest, .ok (wrappedParts e)) := rfl
    obtain ⟨middle, n, hplant, hextends, hmade⟩ := exists_plant_rule .expression rfl hparts
      (spelled_of_mem_wrappedParts hparentheses he)
    have hrule' : middle.isRule e = true := hextends.isRule hrule
    have hdeclaration' : middle.kind d ≠ .expression := by rwa [hextends.kind_eq hd]
    have hd' : d < middle.size := Nat.lt_of_lt_of_le hd hextends.size_le
    have hanswers := answersTernary_of_plant hliterals hplant hmade.kind_eq
      (hmade.children_lt hrule') hd' hdeclaration' statement hstatement
    rwa [hmade.value_hasTerminal hrule' hparentheses, Bool.false_eq_true] at hanswers

/-- The expression has a question mark of its own and one further below, and the declaration holds
an expression with another one. Two statements share an empty return statement. -/
theorem isTernary_exact_nested :
    let vocabulary := Vocabulary.ofNames [none, some "'return'", some "'='", some "';'",
      some "'('", some "')'", some "'?'"] []
    let forest : Forest := ⟨#[
      { label := .rule (.ofKind .expression), children := [1, 3] },
      { label := .rule (.ofKind .expression), children := [2], parent := some 0 },
      { label := .token ⟨6, "?"⟩ false, parent := some 1 },
      { label := .token ⟨6, "?"⟩ false, parent := some 0 },
      { label := .rule (.ofKind .variableDeclaration), children := [1] },
      { label := .rule (.ofKind .returnStatement), parent := some 6 },
      { label := .rule (.ofKind .statement), children := [5] },
      { label := .rule (.ofKind .statement), children := [5, 0, 4] }]⟩
    (∀ statement ∈ [Sketch.returning, .declaring 4], ∃ after s,
      plant vocabulary forest (statement (.existing (.ok (some 0)))) =
        (after, .ok (.node (some s))) ∧
      (after.isTernary vocabulary (some s)).value = true) ∧
    (∀ statement ∈ [Sketch.returning, .declaring 4], ∃ after s,
      plant vocabulary forest (statement (.parenthesizing (.existing (.ok (some 0))))) =
        (after, .ok (.node (some s))) ∧
      (after.isTernary vocabulary (some s)).value = false) ∧
    forest.isTernary vocabulary (some 6) = forest.isTernary vocabulary (some 7) := by
  intro vocabulary forest
  have hnames : vocabulary.literalNames = ["'return'", "'='", "';'", "'('", "')'", "'?'"] := rfl
  have hliterals : vocabulary.Spells ["return", "=", ";"] := by
    rw [Vocabulary.Spells, hnames]
    decide
  have hparentheses : vocabulary.Spells ["(", ")"] := by
    rw [Vocabulary.Spells, hnames]
    decide
  have hmark : Vocabulary.inQuotes "?" ∈ vocabulary.literalNames := by
    rw [hnames]
    decide
  have htype : (6 : Int) = vocabulary.tokenType (Vocabulary.inQuotes "?") := by
    rw [Vocabulary.tokenType_eq_find?]
    decide
  obtain ⟨hshapes, -, hfirst⟩ := isTernary_exact
  have hanswers := hshapes vocabulary forest 0 4 hliterals rfl (by decide) (by decide) (by decide)
  refine ⟨fun statement hstatement => ?_, fun statement hstatement => ?_, ?_⟩
  · obtain ⟨⟨after, s, hplant, hvalue⟩, -⟩ := hanswers statement hstatement
    have hown : ∃ c ∈ forest.children 0, ∃ token, forest.token? c = some token ∧
        token.type = vocabulary.tokenType (Vocabulary.inQuotes "?") :=
      ⟨3, by decide, ⟨6, "?"⟩, rfl, htype⟩
    exact ⟨after, s, hplant, (hvalue after (.refl after)).mpr ⟨hmark, hown⟩⟩
  · obtain ⟨-, hhidden⟩ := hanswers statement hstatement
    obtain ⟨after, s, hplant, hvalue⟩ := hhidden hparentheses
    exact ⟨after, s, hplant, Bool.eq_false_iff.mpr (hvalue after (.refl after)).mp⟩
  · exact hfirst vocabulary forest forest 6 7 rfl (.some (.node rfl rfl .nil))

end Forest

end SolidityLint
