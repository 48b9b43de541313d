import SolidityLint.Proofs.RebuiltTrees

/-!
# Trees with mirrored links

Children and parent links are separate facts, and a node has one link but may stand in many lists
of children. In a `MirroredTree` the two say the same. That is not a matter of the tree alone:
attaching one of its nodes elsewhere changes the link and leaves the list. So it takes a look at
how a tree came about.

A node that is made of roots is the root of such a tree again, because the links inside of the
trees below it are those of nodes that are no roots, and are not touched (`Grown.mirroredTree`).
Calls inside of calls attach nothing but roots that were just made, and while the parts of a node
are made one after the other, those made first stay as they are (`Keeps`); hence what nested calls
build is mirrored at every depth (`plant_planted`). And in any other order of calls a tree is
mirrored if no node of it was attached twice (`Run.rootedTree`), for then the attachment that a
list of children shows is the last one, which the link shows.
-/

namespace SolidityLint

namespace Forest

variable {forest : Forest} {vocabulary : Vocabulary}

/-- The nodes of the tree below a root. -/
def InTree (forest : Forest) (root n : NodeId) : Prop :=
  Relation.ReflTransGen forest.Descends root n

/-- A tree in which parent links mirror the lists of children. A node has one link, so there is
one node that it is attached to. -/
structure MirroredTree (forest : Forest) (root : NodeId) : Prop where
  tree : forest.Tree root
  root_parent? : forest.parent? root = none
  parent?_eq : ∀ {p c : NodeId}, forest.InTree root p → forest.Descends p c →
    forest.parent? c = some p

theorem Tree.of_inTree {root n : NodeId} (h : forest.Tree root) (hn : forest.InTree root n) :
    forest.Tree n := by
  induction hn with
  | refl => exact h
  | tail _ hstep ih =>
      obtain ⟨hrule, hc⟩ := hstep
      obtain ⟨label, hlabel⟩ := isRule_iff.mp hrule
      cases ih with
      | token htoken =>
          rw [hlabel] at htoken
          cases htoken
      | rule _ hchildren => exact hchildren _ hc

namespace MirroredTree

variable {root : NodeId}

theorem of_links (htree : forest.Tree root) (hroot : forest.parent? root = none)
    (hlinks : ∀ p < forest.size, ∀ c ∈ forest.children p, forest.parent? c = some p) :
    forest.MirroredTree root where
  tree := htree
  root_parent? := hroot
  parent?_eq _ hstep := hlinks _ (lt_size_of_isRule hstep.1) _ hstep.2

/-- Only a parent in the tree has a node of the tree among its children. -/
theorem descends_of_parent? (h : forest.MirroredTree root) {n p : NodeId}
    (hn : forest.InTree root n) (hp : forest.parent? n = some p) :
    forest.InTree root p ∧ forest.Descends p n := by
  rcases Relation.ReflTransGen.cases_tail hn with heq | ⟨q, hq, hstep⟩
  · rw [heq, h.root_parent?] at hp
    cases hp
  · cases hp.symm.trans (h.parent?_eq hq hstep)
    exact ⟨hq, hstep⟩

end MirroredTree

/-- A tree with mirrored links in which only rule nodes have children. -/
structure RootedTree (forest : Forest) (root : NodeId) : Prop extends
    MirroredTree forest root where
  isRule : ∀ {p c : NodeId}, forest.InTree root p → c ∈ forest.children p →
    forest.isRule p = true

/-! ## Trees in extended forests -/

section Extended

variable {before after : Forest} {root n : NodeId}

theorem Extends.tree (h : Extends before after) (htree : before.Tree n) : after.Tree n := by
  induction htree with
  | token hlabel => exact .token ((h.label?_eq _ (lt_size_of_label? hlabel)).trans hlabel)
  | @rule n label hlabel _ ih =>
      have hn := lt_size_of_label? hlabel
      refine .rule ((h.label?_eq n hn).trans hlabel) fun c hc => ih c ?_
      rwa [h.children_eq n hn] at hc

theorem Extends.descends_iff (h : Extends before after) (hn : n < before.size) {c : NodeId} :
    after.Descends n c ↔ before.Descends n c := by
  rw [Descends, Descends, isRule_congr (h.label?_eq n hn), h.children_eq n hn]

/-- Nothing comes into a tree that is there. -/
theorem Extends.inTree (h : Extends before after) (htree : before.Tree root)
    (hn : after.InTree root n) : before.InTree root n := by
  induction hn with
  | refl => exact .refl
  | tail _ hstep ih =>
      exact ih.tail ((h.descends_iff (htree.of_inTree ih).lt_size).mp hstep)

theorem Extends.isRule_of_child (h : Extends before after) (hroot : before.RootedTree root)
    {p c : NodeId} (hp : after.InTree root p) (hc : c ∈ after.children p) :
    after.isRule p = true := by
  have hp' := h.inTree hroot.tree hp
  rw [h.children_eq p (hroot.tree.of_inTree hp').lt_size] at hc
  exact h.isRule (hroot.isRule hp' hc)

/-- The later forest has the nodes of the earlier one just as they were there. -/
structure Keeps (before after : Forest) : Prop extends Extends before after where
  parent?_eq : ∀ n < before.size, after.parent? n = before.parent? n

theorem Keeps.refl (forest : Forest) : Keeps forest forest := ⟨.refl forest, fun _ _ => rfl⟩

theorem Keeps.trans {first second third : Forest} (h : Keeps first second)
    (h' : Keeps second third) : Keeps first third where
  toExtends := h.toExtends.trans h'.toExtends
  parent?_eq n hn := by
    rw [h'.parent?_eq n (Nat.lt_of_lt_of_le hn h.size_le), h.parent?_eq n hn]

theorem RootedTree.mono (h : before.RootedTree root) (hkeeps : Keeps before after) :
    after.RootedTree root where
  tree := hkeeps.tree h.tree
  root_parent? := (hkeeps.parent?_eq root h.tree.lt_size).trans h.root_parent?
  parent?_eq {p c} hp hstep := by
    have hp' := hkeeps.inTree h.tree hp
    have hstep' := (hkeeps.descends_iff (h.tree.of_inTree hp').lt_size).mp hstep
    rw [hkeeps.parent?_eq c (h.tree.of_inTree (hp'.tail hstep')).lt_size, h.parent?_eq hp' hstep']
  isRule hp hc := hkeeps.isRule_of_child h hp hc

end Extended

/-! ## Trees that are put together -/

section PutTogether

variable {before after : Forest} {label : RuleLabel} {parts : List Part}

/-- Below a node that was just made stands a terminal of a text or the tree of a part. -/
theorem Grown.inTree_cases (h : Grown before after vocabulary label parts) {p : NodeId}
    (hp : after.InTree before.size p) :
    p = before.size ∨
      (before.size < p ∧ ∃ token, after.label? p = some (.token token false)) ∨
      ∃ root, .node (some root) ∈ parts ∧ after.InTree root p := by
  rcases Relation.ReflTransGen.cases_head hp with rfl | ⟨first, hfirst, hbelow⟩
  · exact .inl rfl
  · obtain ⟨part, hpart, hattached⟩ := exists_of_mem_right h.attached first hfirst.2
    cases hattached with
    | node _ => exact .inr (.inr ⟨first, hpart, hbelow⟩)
    | @text _ token _ _ hlabel hbound =>
        -- There is nothing below a terminal.
        rcases Relation.ReflTransGen.cases_head hbelow with rfl | ⟨second, hsecond, -⟩
        · exact .inr (.inl ⟨hbound, token, hlabel⟩)
        · obtain ⟨label, hlabel'⟩ := isRule_iff.mp hsecond.1
          cases hlabel.symm.trans hlabel'

theorem Grown.tree (h : Grown before after vocabulary label parts)
    (htrees : ∀ n, .node (some n) ∈ parts → before.Tree n) : after.Tree before.size := by
  refine .rule h.label?_eq fun c hc => ?_
  obtain ⟨part, hpart, hattached⟩ := exists_of_mem_right h.attached c hc
  cases hattached with
  | text _ hlabel _ => exact .token hlabel
  | node _ => exact h.extended.tree (htrees c hpart)

variable (hroots : ∀ n, .node (some n) ∈ parts → before.MirroredTree n)

include hroots

/-- The parts are roots, so no link inside of a tree is changed. -/
theorem Grown.parent?_of_descends (h : Grown before after vocabulary label parts)
    {root p c : NodeId} (hroot : before.MirroredTree root) (hp : after.InTree root p)
    (hstep : after.Descends p c) : after.parent? c = some p := by
  have hp' := h.extended.inTree hroot.tree hp
  have hstep' := (h.extended.descends_iff (hroot.tree.of_inTree hp').lt_size).mp hstep
  have hparent := hroot.parent?_eq hp' hstep'
  have hc := (hroot.tree.of_inTree (hp'.tail hstep')).lt_size
  rw [h.parent?_of_free hc ?_, hparent]
  intro hpart
  rw [(hroots c hpart).root_parent?] at hparent
  cases hparent

theorem Grown.mirroredTree_of_free (h : Grown before after vocabulary label parts) {root : NodeId}
    (hroot : before.MirroredTree root) (hfree : .node (some root) ∉ parts) :
    after.MirroredTree root where
  tree := h.extended.tree hroot.tree
  root_parent? := (h.parent?_of_free hroot.tree.lt_size hfree).trans hroot.root_parent?
  parent?_eq hp hstep := h.parent?_of_descends hroots hroot hp hstep

theorem Grown.mirroredTree (h : Grown before after vocabulary label parts) :
    after.MirroredTree before.size where
  tree := h.tree fun n hn => (hroots n hn).tree
  root_parent? := h.parent?_size fun n hn => (hroots n hn).tree.lt_size
  parent?_eq {p c} hp hstep := by
    rcases h.inTree_cases hp with rfl | ⟨-, token, hlabel⟩ | ⟨root, hpart, hbelow⟩
    · rw [h.parent?_eq, if_pos hstep.2]
    · obtain ⟨label, hlabel'⟩ := isRule_iff.mp hstep.1
      cases hlabel.symm.trans hlabel'
    · exact h.parent?_of_descends hroots (hroots root hpart) hbelow hstep

omit hroots in
theorem Grown.rootedTree (h : Grown before after vocabulary label parts)
    (hroots : ∀ n, .node (some n) ∈ parts → before.RootedTree n) :
    after.RootedTree before.size where
  toMirroredTree := h.mirroredTree fun n hn => (hroots n hn).toMirroredTree
  isRule {p c} hp hc := by
    rcases h.inTree_cases hp with rfl | ⟨hlt, -⟩ | ⟨root, hpart, hbelow⟩
    · exact isRule_iff.mpr ⟨label, h.label?_eq⟩
    · rw [h.children_eq_nil p hlt] at hc
      cases hc
    · exact h.extended.isRule_of_child (hroots root hpart) hbelow hc

end PutTogether

/-! ## Trees that nested calls build -/

end Forest

/-- A sketch of nodes that are all to be made. -/
inductive Sketch.Fresh : Sketch → Prop where
  | text (text : String) : Fresh (.text text)
  | rule (kind : Kind) {children : List Sketch} (h : ∀ child ∈ children, Fresh child) :
      Fresh (.rule kind children)
  | labelled (label : RuleLabel) {children : List Sketch} (h : ∀ child ∈ children, Fresh child) :
      Fresh (.labelled label children)
  | token (text : String) (choice : TypeChoice) (erroneous : Bool) :
      Fresh (.token text choice erroneous)

namespace Forest

/-- What was there is kept, and the nodes among the parts are new roots. -/
structure Planted (before after : Forest) (parts : List Part) : Prop where
  keeps : Keeps before after
  rooted : ∀ n, .node (some n) ∈ parts → before.size ≤ n ∧ after.RootedTree n

theorem growLabelled_planted {before middle after : Forest} {label : RuleLabel} {n : NodeId}
    {parts : List Part} (h : Planted before middle parts)
    (hgrow : middle.growLabelled vocabulary label parts = (after, .ok n)) :
    Planted before after [.node (some n)] := by
  obtain ⟨rfl, hattachable⟩ := growLabelled_eq_ok_iff.mp (congrArg Prod.snd hgrow)
  obtain ⟨after', hgrow', hgrown⟩ := growLabelled_grown label
    (fun n hn => (h.rooted n hn).2.tree.lt_size) hattachable
  cases hgrow.symm.trans hgrow'
  refine ⟨⟨h.keeps.toExtends.trans hgrown.extended, fun n hn => ?_⟩, fun n hn => ?_⟩
  · -- The parts are new, so none of them was there before.
    have hfree : .node (some n) ∉ parts := fun hpart => Nat.not_lt.mpr (h.rooted n hpart).1 hn
    rw [hgrown.parent?_of_free (Nat.lt_of_lt_of_le hn h.keeps.size_le) hfree,
      h.keeps.parent?_eq n hn]
  · cases List.mem_singleton.mp hn
    exact ⟨h.keeps.size_le, hgrown.rootedTree fun n hn => (h.rooted n hn).2⟩

theorem plantAll_planted {sketches : List Sketch}
    (hplant : ∀ sketch ∈ sketches, ∀ {before after : Forest} {part : Part},
      plant vocabulary before sketch = (after, .ok part) → Planted before after [part]) :
    ∀ {before after : Forest} {parts : List Part},
      plantAll vocabulary before sketches = (after, .ok parts) → Planted before after parts := by
  induction sketches with
  | nil =>
      intro before after parts h
      cases h
      exact ⟨.refl before, fun n hn => nomatch hn⟩
  | cons sketch rest ih =>
      intro before after parts h
      obtain ⟨hsketch, hrest⟩ := List.forall_mem_cons.mp hplant
      rw [plantAll] at h
      split at h
      · next middle part hpart =>
          split at h
          · next last others hothers =>
              cases h
              have hfirst := hsketch hpart
              have hlater := ih hrest hothers
              refine ⟨hfirst.keeps.trans hlater.keeps, fun n hn => ?_⟩
              rcases List.mem_cons.mp hn with heq | hn
              · obtain ⟨hle, hrooted⟩ := hfirst.rooted n (List.mem_singleton.mpr heq)
                exact ⟨hle, hrooted.mono hlater.keeps⟩
              · obtain ⟨hle, hrooted⟩ := hlater.rooted n hn
                exact ⟨Nat.le_trans hfirst.keeps.size_le hle, hrooted⟩
          · cases h
      · cases h

theorem rootedTree_of_leaf {forest : Forest} {n : NodeId} {token : Token} {erroneous : Bool}
    (hlabel : forest.label? n = some (.token token erroneous)) (hparent : forest.parent? n = none)
    (hchildren : forest.children n = []) : forest.RootedTree n := by
  have halone : ∀ {p : NodeId}, forest.InTree n p → p = n := by
    intro p hp
    rcases Relation.ReflTransGen.cases_head hp with rfl | ⟨c, hstep, -⟩
    · rfl
    · rw [Descends, hchildren] at hstep
      cases hstep.2
  refine ⟨⟨.token hlabel, hparent, fun hp hstep => ?_⟩, fun hp hc => ?_⟩
  · rw [Descends, halone hp, hchildren] at hstep
    cases hstep.2
  · rw [halone hp, hchildren] at hc
    cases hc

theorem add_planted (forest : Forest) (token : Token) (erroneous : Bool) :
    Planted forest (forest.add (.token token erroneous) none).1 [.node (some forest.size)] := by
  refine ⟨⟨⟨?_, fun n hn => ?_, fun n _ => children_add ..⟩, fun n hn => ?_⟩, fun n hn => ?_⟩
  · rw [size_add]
    exact Nat.le_succ _
  · rw [label?_add, if_neg (Nat.ne_of_lt hn)]
  · rw [parent?_add, if_neg (Nat.ne_of_lt hn)]
  · cases List.mem_singleton.mp hn
    have hlabel : (forest.add (.token token erroneous) none).1.label? forest.size =
        some (.token token erroneous) := by
      rw [label?_add, if_pos rfl]
    refine ⟨Nat.le_refl _, rootedTree_of_leaf hlabel ?_ ?_⟩
    · rw [parent?_add, if_pos rfl]
    · rw [children_add, children_eq_nil forest (Nat.le_refl _)]

/-- What nested calls build is mirrored at every depth. -/
theorem plant_planted {sketch : Sketch} (hfresh : sketch.Fresh) :
    ∀ {before after : Forest} {part : Part},
      plant vocabulary before sketch = (after, .ok part) → Planted before after [part] := by
  induction hfresh with
  | text text =>
      intro before after part h
      cases h
      exact ⟨.refl before, by simp⟩
  | rule kind _ ih =>
      intro before after part h
      obtain ⟨-, middle, parts, n, hparts, hgrow, rfl⟩ := plant_rule_eq_ok_iff.mp h
      exact growLabelled_planted (plantAll_planted @ih hparts) hgrow
  | labelled label _ ih =>
      intro before after part h
      rw [plant] at h
      split at h
      · next middle parts hparts =>
          rcases hgrow : middle.growLabelled vocabulary label parts with ⟨last, fault | n⟩
          · rw [hgrow] at h
            cases h
          · rw [hgrow] at h
            cases h
            exact growLabelled_planted (plantAll_planted @ih hparts) hgrow
      · cases h
  | token text choice erroneous =>
      intro before after part h
      rw [plant] at h
      split at h
      · next token _ =>
          cases h
          exact add_planted before token erroneous
      · cases h

end Forest

/-! ## Trees whose nodes were attached once -/

theorem Call.mem_children_perform {forest : Forest} {history : List (NodeId × NodeId)}
    {call : Call} (hcall : call.Admissible forest)
    (h : ∀ c p, c ∈ forest.children p ↔ (c, p) ∈ history) (c p : NodeId) :
    c ∈ (call.perform forest).1.children p ↔ (c, p) ∈ history ++ call.attachments forest := by
  have hattach : ∀ {before after : Forest} {parent : NodeId} {nodes : List NodeId},
      Forest.AttachedBelow before after parent nodes →
      (∀ n, before.children n = forest.children n) →
      (c ∈ after.children p ↔ (c, p) ∈ history ++ nodes.map (·, parent)) := by
    intro before after parent nodes hattached hbefore
    rw [hattached.children_eq, hbefore, List.mem_append, ← h]
    by_cases hp : parent = p
    · simp [hp]
    · simp [hp]
  rcases perform_cases hcall with ⟨heq, hnone⟩ | ⟨label, nodes, hattached, -, hnodes⟩ |
      ⟨parent, -, hattached, hnodes⟩
  · rw [heq, hnone, List.append_nil, h]
  · rw [hnodes]
    exact hattach hattached fun n => Forest.children_add ..
  · rw [hnodes]
    exact hattach hattached fun n => rfl

/-- A list of children shows the attachments that were made, early and late ones. -/
theorem Run.mem_children_iff {forest : Forest} {history : List (NodeId × NodeId)}
    (h : Run forest history) (c p : NodeId) : c ∈ forest.children p ↔ (c, p) ∈ history := by
  induction h generalizing c p with
  | start => exact iff_of_false List.not_mem_nil List.not_mem_nil
  | call run call admissible ih => exact Call.mem_children_perform admissible ih c p

theorem attachedLast_of_once {history : List (NodeId × NodeId)} {n p : NodeId}
    (hmem : (n, p) ∈ history) (honce : (history.map (·.1)).count n ≤ 1) :
    AttachedLast history n p := by
  obtain ⟨before, after, rfl⟩ := List.append_of_mem hmem
  refine ⟨before, after, rfl, fun later hlater heq => ?_⟩
  have hcount : 0 < (after.map (·.1)).count n :=
    List.count_pos_iff.mpr (List.mem_map.mpr ⟨later, hlater, heq⟩)
  rw [List.map_append, List.map_cons, List.count_append, List.count_cons_self] at honce
  omega

theorem Forest.Linked.tree {forest : Forest} (h : forest.Linked) {n : NodeId}
    (hn : n < forest.size) : forest.Tree n :=
  h.bounded_induction (motive := fun _ n => forest.Tree n)
    (fun _ _ _ hlabel => .token hlabel) (fun _ _ _ hlabel hchildren => .rule hlabel hchildren)
    (h.bounded hn)

/-- The root was attached nowhere, and no other node of the tree twice. -/
theorem Run.rootedTree {forest : Forest} {history : List (NodeId × NodeId)} (h : Run forest history)
    {root : NodeId} (hroot : root < forest.size) (hfree : ∀ p, (root, p) ∉ history)
    (honce : ∀ n, forest.InTree root n → (history.map (·.1)).count n ≤ 1) :
    forest.RootedTree root where
  tree := h.linked.tree hroot
  root_parent? := by
    cases hparent : forest.parent? root with
    | none => rfl
    | some p =>
        have hmem := (h.mem_children_iff root p).mp (h.linked.mem_children hparent)
        exact absurd hmem (hfree p)
  parent?_eq {p c} hp hstep := by
    rw [h.parent?_eq, lastParent?_eq_some_iff]
    exact attachedLast_of_once ((h.mem_children_iff c p).mp hstep.2) (honce c (hp.tail hstep))
  isRule _ hc := h.linked.isRule hc

namespace Forest

/-- A tree that came about by attaching each node of it once: by nested calls that make all of it
and are followed by nothing that changes it, or by any calls, of which none attached the root and
no two attached one of the others. -/
inductive BuiltOnce (forest : Forest) (root : NodeId) : Prop where
  | nested {vocabulary : Vocabulary} {before planted : Forest} {sketch : Sketch}
      (fresh : sketch.Fresh)
      (plant_eq : plant vocabulary before sketch = (planted, .ok (.node (some root))))
      (keeps : Keeps planted forest)
  | calls {history : List (NodeId × NodeId)} (run : Run forest history)
      (lt_size : root < forest.size) (free : ∀ p, (root, p) ∉ history)
      (once : ∀ n, forest.InTree root n → (history.map (·.1)).count n ≤ 1)

theorem BuiltOnce.rootedTree {forest : Forest} {root : NodeId} (h : forest.BuiltOnce root) :
    forest.RootedTree root := by
  cases h with
  | nested fresh plant_eq keeps =>
      obtain ⟨-, hrooted⟩ := (plant_planted fresh plant_eq).rooted root (List.mem_singleton_self _)
      exact hrooted.mono keeps
  | calls run lt_size free once => exact run.rootedTree lt_size free once

end Forest

end SolidityLint
