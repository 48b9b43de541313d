import Mathlib.Data.List.Forall2
import Mathlib.Data.List.Perm.Subperm
import Mathlib.Data.List.Range
import Mathlib.Logic.Relation
import SolidityLint.Document
import SolidityLint.Proofs.BuilderRun
import SolidityLint.Proofs.NameIndex
import SolidityLint.Query.Navigation

/-!
# Links of built forests

Nodes can be shared, attached twice to one parent, attached again to another one,
and left below a parent that a failed call abandoned, and a terminal can come
below a rule node that is much older than it. Whatever the calls were, walks in a
built forest end, and the links belong together.

The order of the numbers almost serves as a measure: a rule node gets its rule
nodes when it is made, so they are older. Terminals break it, because they may
be younger than their parents, but they have no children. So `rank` puts all
terminals below all rule nodes, and a step down always lowers it. A parent link
only ever leads to a node that holds the child, so a step up raises it.

Both walks of the library are bounded by the number of nodes, and that the bound
is never met is not a matter of the rank: the rank of a rule node can exceed the
number of nodes below it. It is the pigeonhole (`Trail`): nodes on a walk have
different ranks, so they are different, and there are no more than all of them.
-/

namespace SolidityLint

namespace Forest

/-- What the calls of the builder keep. -/
structure Linked (forest : Forest) : Prop where
  occupied : ∀ n < forest.size,
    forest.isRule n = true ∨ ∃ token, forest.label? n = some (.token token false)
  isRule : ∀ {p c : NodeId}, c ∈ forest.children p → forest.isRule p = true
  child_lt_size : ∀ {p c : NodeId}, c ∈ forest.children p → c < forest.size
  rule_child_lt : ∀ {p c : NodeId}, c ∈ forest.children p → forest.isRule c = true → c < p
  mem_children : ∀ {n p : NodeId}, forest.parent? n = some p → n ∈ forest.children p

theorem linked_empty : Linked {} where
  occupied n hn := absurd hn (Nat.not_lt_zero n)
  isRule h := nomatch h
  child_lt_size h := nomatch h
  rule_child_lt h := nomatch h
  mem_children h := nomatch h

theorem isRule_add (forest : Forest) (label : RuleLabel) (n : NodeId) :
    (forest.add (.rule label) none).1.isRule n = (decide (n = forest.size) || forest.isRule n) := by
  by_cases hn : n = forest.size
  · simp [isRule, ruleLabel?, label?_add, hn]
  · have hlabel : (forest.add (.rule label) none).1.label? n = forest.label? n := by
      rw [label?_add, if_neg hn]
    rw [isRule_congr hlabel, decide_eq_false hn, Bool.false_or]

theorem Linked.addRule {forest : Forest} (h : Linked forest) (label : RuleLabel) :
    Linked (forest.add (.rule label) none).1 where
  occupied n hn := by
    rw [isRule_add, label?_add]
    by_cases heq : n = forest.size
    · simp [heq]
    · rw [size_add] at hn
      simpa [heq] using h.occupied n (by omega)
  isRule hc := by
    rw [children_add] at hc
    rw [isRule_add, h.isRule hc, Bool.or_true]
  child_lt_size hc := by
    rw [children_add] at hc
    rw [size_add]
    exact Nat.lt_succ_of_lt (h.child_lt_size hc)
  rule_child_lt {p c} hc hrule := by
    rw [children_add] at hc
    have hlt := h.child_lt_size hc
    rw [isRule_add, decide_eq_false (Nat.ne_of_lt hlt), Bool.false_or] at hrule
    exact h.rule_child_lt hc hrule
  mem_children {n p} hparent := by
    rw [parent?_add] at hparent
    split at hparent
    · cases hparent
    · rw [children_add]
      exact h.mem_children hparent

theorem AttachedBelow.isRule_eq {before after : Forest} {parent : NodeId} {nodes : List NodeId}
    (h : AttachedBelow before after parent nodes) (n : NodeId) :
    after.isRule n = before.isRule n := by
  rcases Nat.lt_or_ge n before.size with hn | hn
  · exact isRule_congr (h.label?_eq n hn)
  · have hbefore : before.label? n = none := (label?_eq_none_iff before).mpr hn
    rcases Nat.lt_or_ge n after.size with hn' | hn'
    · obtain ⟨-, token, htoken⟩ := h.fresh n hn hn'
      simp [Forest.isRule, ruleLabel?, hbefore, htoken]
    · have hafter : after.label? n = none := (label?_eq_none_iff after).mpr hn'
      exact isRule_congr (hafter.trans hbefore.symm)

theorem Linked.attach {before after : Forest} {parent : NodeId} {nodes : List NodeId}
    (h : Linked before) (hparent : before.isRule parent = true)
    (hnodes : ∀ n ∈ nodes, before.isRule n = true → n < parent)
    (hattached : AttachedBelow before after parent nodes) : Linked after where
  occupied n hn := by
    rcases Nat.lt_or_ge n before.size with hlt | hge
    · rw [hattached.isRule_eq, hattached.label?_eq n hlt]
      exact h.occupied n hlt
    · exact Or.inr (hattached.fresh n hge hn).2
  isRule {p c} hc := by
    rw [hattached.isRule_eq]
    rw [hattached.children_eq] at hc
    split at hc
    · next heq => exact heq ▸ hparent
    · exact h.isRule hc
  child_lt_size {p c} hc := by
    rw [hattached.children_eq] at hc
    split at hc
    · rcases List.mem_append.mp hc with hc | hc
      · exact Nat.lt_of_lt_of_le (h.child_lt_size hc) hattached.size_le
      · exact hattached.lt_size c hc
    · exact Nat.lt_of_lt_of_le (h.child_lt_size hc) hattached.size_le
  rule_child_lt {p c} hc hrule := by
    rw [hattached.isRule_eq] at hrule
    rw [hattached.children_eq] at hc
    split at hc
    · next heq =>
        rcases List.mem_append.mp hc with hc | hc
        · exact h.rule_child_lt hc hrule
        · exact heq ▸ hnodes c hc hrule
    · exact h.rule_child_lt hc hrule
  mem_children {n p} hlink := by
    rw [hattached.parent?_eq] at hlink
    rw [hattached.children_eq]
    split at hlink
    · next hmem =>
        rw [if_pos (Option.some.inj hlink)]
        exact List.mem_append_right _ hmem
    · have hmem := h.mem_children hlink
      split
      · exact List.mem_append_left _ hmem
      · exact hmem

end Forest

theorem Call.linked_perform {forest : Forest} {call : Call} (h : forest.Linked)
    (hcall : call.Admissible forest) : (call.perform forest).1.Linked := by
  rcases perform_cases hcall with ⟨heq, -⟩ | ⟨label, nodes, hattached, hnodes, -⟩ |
      ⟨parent, hparent, hattached, -⟩
  · rw [heq]
    exact h
  · refine (h.addRule label).attach ?_ ?_ hattached
    · simp [Forest.isRule_add]
    · -- The new node is the youngest, and of the nodes made with it none is a rule node.
      intro n hn hrule
      rcases hnodes n hn with hlt | hgt
      · exact hlt
      · rw [Forest.isRule_add, decide_eq_false (Nat.ne_of_gt hgt), Bool.false_or] at hrule
        exact absurd (Forest.lt_size_of_isRule hrule) (Nat.not_lt.mpr (Nat.le_of_lt hgt))
  · refine h.attach hparent ?_ hattached
    intro n hn hrule
    rw [List.mem_singleton.mp hn] at hrule
    exact absurd (Forest.lt_size_of_isRule hrule) (Nat.lt_irrefl _)

theorem Run.linked {forest : Forest} {history : List (NodeId × NodeId)}
    (h : Run forest history) : forest.Linked := by
  induction h with
  | start => exact Forest.linked_empty
  | call run call admissible ih => exact Call.linked_perform ih admissible

namespace Forest

/-! ## Walks down -/

/-- The second node is a child of the first. -/
def IsChild (forest : Forest) (p c : NodeId) : Prop := c ∈ forest.children p

/-- A measure that steps down lower: terminals come below all rule nodes. -/
def rank (forest : Forest) (n : NodeId) : Nat := if forest.isRule n then n + 1 else 0

theorem Linked.rank_lt {forest : Forest} (h : Linked forest) {p c : NodeId}
    (hc : c ∈ forest.children p) : forest.rank c < forest.rank p := by
  rw [rank, rank, if_pos (h.isRule hc)]
  split
  · next hrule => exact Nat.succ_lt_succ (h.rule_child_lt hc hrule)
  · exact Nat.succ_pos p

theorem Linked.acyclic {forest : Forest} (h : Linked forest) (n : NodeId) :
    ¬ Relation.TransGen forest.IsChild n n := by
  have hdown : ∀ {a b : NodeId}, Relation.TransGen forest.IsChild a b →
      forest.rank b < forest.rank a := by
    intro a b hab
    induction hab with
    | single hchild => exact h.rank_lt hchild
    | tail _ hchild ih => exact Nat.lt_trans (h.rank_lt hchild) ih
  exact fun hcycle => Nat.lt_irrefl _ (hdown hcycle)

/-- Different nodes that a walk met, the last one first, with their ranks in an order,
and how many more it may meet. -/
structure Trail (forest : Forest) (r : Nat → Nat → Prop) (left : Nat) (met : List NodeId) :
    Prop where
  lt_size : ∀ n ∈ met, n < forest.size
  pairwise : met.Pairwise fun a b => r (forest.rank a) (forest.rank b)
  length : left + met.length = forest.size + 1

theorem Trail.start {forest : Forest} {r : Nat → Nat → Prop} {n : NodeId} (hn : n < forest.size) :
    Trail forest r forest.size [n] where
  lt_size _ hm := List.mem_singleton.mp hm ▸ hn
  pairwise := List.pairwise_singleton _ n
  length := rfl

theorem Trail.step {forest : Forest} {r : Nat → Nat → Prop} [IsTrans Nat r] {left : Nat}
    {n next : NodeId} {met : List NodeId} (h : Trail forest r (left + 1) (n :: met))
    (hnext : next < forest.size) (hr : r (forest.rank next) (forest.rank n)) :
    Trail forest r left (next :: n :: met) where
  lt_size := List.forall_mem_cons.mpr ⟨hnext, h.lt_size⟩
  pairwise := by
    refine List.pairwise_cons.mpr ⟨List.forall_mem_cons.mpr ⟨hr, fun m hm => ?_⟩, h.pairwise⟩
    exact IsTrans.trans _ _ _ hr ((List.pairwise_cons.mp h.pairwise).1 m hm)
  length := by
    have hlength := h.length
    simp only [List.length_cons] at hlength ⊢
    omega

theorem length_le_size {forest : Forest} {met : List NodeId} (hnodup : met.Nodup)
    (hlt : ∀ n ∈ met, n < forest.size) : met.length ≤ forest.size := by
  have hsub : met ⊆ List.range forest.size := fun n hn => List.mem_range.mpr (hlt n hn)
  simpa using (List.subperm_of_subset hnodup hsub).length_le

/-- A walk does not meet more nodes than there are. -/
theorem Trail.not_exhausted {forest : Forest} {r : Nat → Nat → Prop} [Std.Irrefl r]
    {met : List NodeId} (h : Trail forest r 0 met) : False := by
  have hnodup : met.Nodup := by
    refine List.Pairwise.imp (fun {a b} hr heq => ?_) h.pairwise
    rw [heq] at hr
    exact Std.Irrefl.irrefl _ hr
  have hle := length_le_size hnodup h.lt_size
  have hlength := h.length
  omega

/-- All nodes at and below a node exist, and no walk down from it meets more than
`depth` nodes. -/
def Bounded (forest : Forest) : Nat → NodeId → Prop
  | 0, _ => False
  | depth + 1, n => n < forest.size ∧ ∀ c ∈ forest.children n, forest.Bounded depth c

theorem Linked.bounded_of_trail {forest : Forest} (h : Linked forest) {depth : Nat} :
    ∀ {n : NodeId} {met : List NodeId}, Trail forest (· < ·) depth (n :: met) →
      forest.Bounded depth n := by
  induction depth with
  | zero => exact fun htrail => htrail.not_exhausted.elim
  | succ depth ih =>
      intro n met htrail
      refine ⟨htrail.lt_size n List.mem_cons_self, fun c hc => ?_⟩
      exact ih (htrail.step (h.child_lt_size hc) (h.rank_lt hc))

theorem Linked.bounded {forest : Forest} (h : Linked forest) {n : NodeId} (hn : n < forest.size) :
    forest.Bounded forest.size n :=
  h.bounded_of_trail (.start hn)

/-- What holds of terminals, and of rule nodes if it holds of their children with one
step less, holds of all nodes from which walks are bounded. -/
theorem Linked.bounded_induction {forest : Forest} (h : Linked forest)
    {motive : Nat → NodeId → Prop}
    (terminal : ∀ depth n token, forest.label? n = some (.token token false) →
      motive (depth + 1) n)
    (rule : ∀ depth n label, forest.label? n = some (.rule label) →
      (∀ c ∈ forest.children n, motive depth c) → motive (depth + 1) n) {depth : Nat} :
    ∀ {n : NodeId}, forest.Bounded depth n → motive depth n := by
  induction depth with
  | zero => exact fun hbounded => hbounded.elim
  | succ depth ih =>
      intro n hbounded
      rcases h.occupied n hbounded.1 with hrule | ⟨token, htoken⟩
      · obtain ⟨label, hlabel⟩ := isRule_iff.mp hrule
        exact rule depth n label hlabel fun c hc => ih (hbounded.2 c hc)
      · exact terminal depth n token htoken

theorem mapM_ok {α β : Type} {f : α → Except Fault β} :
    ∀ {list : List α}, (∀ a ∈ list, ∃ b, f a = .ok b) → ∃ bs, list.mapM f = .ok bs := by
  intro list
  induction list with
  | nil => exact fun _ => ⟨[], rfl⟩
  | cons a rest ih =>
      intro h
      obtain ⟨b, hb⟩ := h a List.mem_cons_self
      obtain ⟨bs, hbs⟩ := ih fun a' ha' => h a' (List.mem_cons_of_mem a ha')
      exact ⟨b :: bs, by rw [List.mapM_cons, hb, hbs]; rfl⟩

theorem mapM_eq_ok_iff {α β : Type} {f : α → Except Fault β} {list : List α} {bs : List β} :
    list.mapM f = .ok bs ↔ List.Forall₂ (fun a b => f a = .ok b) list bs := by
  induction list generalizing bs with
  | nil =>
      show (.ok [] : Except Fault (List β)) = .ok bs ↔ _
      rw [List.forall₂_nil_left_iff, Except.ok.injEq, eq_comm]
  | cons a rest ih =>
      rw [List.mapM_cons, List.forall₂_cons_left_iff]
      cases hb : f a with
      | error fault => exact iff_of_false (fun h => nomatch h) (by simp)
      | ok b =>
          cases hbs : rest.mapM f with
          | error fault =>
              refine iff_of_false (fun h => nomatch h) ?_
              rintro ⟨b', bs', -, hrest, -⟩
              rw [ih.mpr hrest] at hbs
              cases hbs
          | ok others =>
              show (.ok (b :: others) : Except Fault (List β)) = .ok bs ↔ _
              simp only [Except.ok.injEq, ← ih, hbs]
              constructor
              · intro heq
                exact ⟨b, others, rfl, rfl, heq.symm⟩
              · rintro ⟨b', bs', rfl, rfl, rfl⟩
                rfl

theorem exists_ok_of_mapM {α β : Type} {f : α → Except Fault β} {list : List α} {bs : List β}
    (h : list.mapM f = .ok bs) : ∀ a ∈ list, ∃ b, f a = .ok b := by
  induction mapM_eq_ok_iff.mp h with
  | nil => exact List.forall_mem_nil _
  | cons hb hrest ih =>
      exact List.forall_mem_cons.mpr ⟨⟨_, hb⟩, ih (mapM_eq_ok_iff.mpr hrest)⟩

theorem Linked.textWithin_ok {forest : Forest} (h : Linked forest) {depth : Nat} {n : NodeId}
    (hbounded : forest.Bounded depth n) : ∃ text, forest.textWithin depth n = .ok text := by
  refine h.bounded_induction
    (motive := fun depth n => ∃ text, forest.textWithin depth n = .ok text)
    (fun depth n token htoken => ?_) (fun depth n label hlabel ih => ?_) hbounded
  · rw [textWithin, htoken]
    exact ⟨token.text, rfl⟩
  · obtain ⟨texts, htexts⟩ := mapM_ok ih
    rw [textWithin, hlabel]
    simp only [htexts]
    exact ⟨String.join texts, rfl⟩

theorem Linked.documentWithin_ok {forest : Forest} (h : Linked forest) (vocabulary : Vocabulary)
    {depth : Nat} {n : NodeId} (hbounded : forest.Bounded depth n) :
    ∃ document, forest.documentWithin vocabulary depth n = .ok document := by
  refine h.bounded_induction
    (motive := fun depth n => ∃ document, forest.documentWithin vocabulary depth n = .ok document)
    (fun depth n token htoken => ?_) (fun depth n label hlabel ih => ?_) hbounded
  · rw [documentWithin, htoken]
    exact ⟨.token (vocabulary.tokenName token.type) token.text false, rfl⟩
  · obtain ⟨documents, hdocuments⟩ := mapM_ok ih
    rw [documentWithin, hlabel]
    simp only [hdocuments]
    exact ⟨.rule label.ruleName documents, rfl⟩

/-! ## Walks up -/

/-- Following the parent links from a node meets these nodes and then ends. -/
inductive Climbs (forest : Forest) : NodeId → List NodeId → Prop where
  | top {n : NodeId} (h : forest.parent? n = none) : Climbs forest n []
  | up {n p : NodeId} {above : List NodeId} (h : forest.parent? n = some p)
      (rest : Climbs forest p above) : Climbs forest n (p :: above)

/-- The search for a contract, as a loop that looks at one node after the other
along the parent links, ends with this result. -/
inductive ContractSearch (forest : Forest) : Option NodeId → Option NodeId → Prop where
  | exhausted : ContractSearch forest none none
  | found {p : NodeId} (h : forest.kind p = .contractDefinition) :
      ContractSearch forest (some p) (some p)
  | next {p : NodeId} {result : Option NodeId} (h : forest.kind p ≠ .contractDefinition)
      (rest : ContractSearch forest (forest.parent? p) result) :
      ContractSearch forest (some p) result

theorem Climbs.contractSearch {forest : Forest} {n : NodeId} {above : List NodeId}
    (h : Climbs forest n above) :
    ContractSearch forest (forest.parent? n)
      (above.find? fun p => forest.kind p == .contractDefinition) := by
  induction h with
  | top h =>
      rw [h]
      exact .exhausted
  | @up n p above h rest ih =>
      rw [h, List.find?_cons]
      by_cases hkind : forest.kind p = .contractDefinition
      · rw [beq_iff_eq.mpr hkind]
        exact .found hkind
      · rw [beq_eq_false_iff_ne.mpr hkind]
        exact .next hkind ih

theorem Climbs.unique {forest : Forest} {n : NodeId} {above others : List NodeId}
    (h : Climbs forest n above) (h' : Climbs forest n others) : above = others := by
  induction h generalizing others with
  | top hnone =>
      cases h' with
      | top _ => rfl
      | up hsome _ =>
          rw [hnone] at hsome
          cases hsome
  | up hsome _ ih =>
      cases h' with
      | top hnone =>
          rw [hsome] at hnone
          cases hnone
      | up hsome' rest =>
          rw [hsome] at hsome'
          cases hsome'
          rw [ih rest]

theorem Climbs.exists_of_mem {forest : Forest} {n m : NodeId} {above : List NodeId}
    (h : Climbs forest n above) (hm : m ∈ above) :
    ∃ rest, Climbs forest m rest ∧ rest.length < above.length := by
  induction h with
  | top _ => cases hm
  | @up n p above _ rest ih =>
      rcases List.mem_cons.mp hm with rfl | hm
      · exact ⟨above, rest, Nat.lt_succ_self _⟩
      · obtain ⟨others, hothers, hlength⟩ := ih hm
        exact ⟨others, hothers, Nat.lt_succ_of_lt hlength⟩

theorem Climbs.nodup {forest : Forest} {n : NodeId} {above : List NodeId}
    (h : Climbs forest n above) : (n :: above).Nodup := by
  induction h with
  | top _ => exact List.pairwise_singleton _ _
  | @up n p above hparent rest ih =>
      refine List.nodup_cons.mpr ⟨fun hmem => ?_, ih⟩
      -- A node met again would be nearer to the end of the one walk that starts at it.
      have hclimbs : Climbs forest n (p :: above) := .up hparent rest
      obtain ⟨others, hothers, hlength⟩ := hclimbs.exists_of_mem hmem
      rw [hothers.unique hclimbs] at hlength
      exact Nat.lt_irrefl _ hlength

theorem Linked.climbs_of_trail {forest : Forest} (h : Linked forest) {height : Nat} :
    ∀ {n : NodeId} {met : List NodeId}, Trail forest (· > ·) height (n :: met) →
      Climbs forest n (forest.ancestorsWithin height n) := by
  induction height with
  | zero => exact fun htrail => htrail.not_exhausted.elim
  | succ height ih =>
      intro n met htrail
      rw [ancestorsWithin]
      cases hparent : forest.parent? n with
      | none => exact .top hparent
      | some p =>
          have hmem := h.mem_children hparent
          exact .up hparent
            (ih (htrail.step (lt_size_of_isRule (h.isRule hmem)) (h.rank_lt hmem)))

theorem Linked.climbs {forest : Forest} (h : Linked forest) {n : NodeId} (hn : n < forest.size) :
    Climbs forest n (forest.ancestors n) :=
  h.climbs_of_trail (.start hn)

theorem Linked.nodup_ancestors {forest : Forest} (h : Linked forest) {n : NodeId}
    (hn : n < forest.size) : (n :: forest.ancestors n).Nodup :=
  (h.climbs hn).nodup

end Forest

/-! ## The last attachment -/

/-- The last attachment of the node in the history was to this parent. -/
def AttachedLast (history : List (NodeId × NodeId)) (n p : NodeId) : Prop :=
  ∃ before after, history = before ++ (n, p) :: after ∧ ∀ later ∈ after, later.1 ≠ n

/-- The parent in the last attachment of a node, if there is one. -/
def lastParent? (history : List (NodeId × NodeId)) (n : NodeId) : Option NodeId :=
  (history.reverse.find? (·.1 == n)).map (·.2)

theorem lastParent?_eq_some_iff {history : List (NodeId × NodeId)} {n p : NodeId} :
    lastParent? history n = some p ↔ AttachedLast history n p := by
  rw [lastParent?, Option.map_eq_some_iff]
  constructor
  · rintro ⟨⟨child, parent⟩, hfind, rfl⟩
    obtain ⟨hchild, later, earlier, hsplit, hlater⟩ := List.find?_eq_some_iff_append.mp hfind
    obtain rfl : child = n := by simpa using hchild
    refine ⟨earlier.reverse, later.reverse, ?_, fun a ha => ?_⟩
    · rw [← List.reverse_reverse history, hsplit]
      simp
    · simpa using hlater a (List.mem_reverse.mp ha)
  · rintro ⟨before, after, rfl, hafter⟩
    refine ⟨(n, p), List.find?_eq_some_iff_append.mpr
      ⟨beq_self_eq_true n, after.reverse, before.reverse, by simp, fun a ha => ?_⟩, rfl⟩
    simpa using hafter a (List.mem_reverse.mp ha)

theorem lastParent?_append (history : List (NodeId × NodeId)) (nodes : List NodeId)
    (p n : NodeId) :
    lastParent? (history ++ nodes.map (·, p)) n =
      if n ∈ nodes then some p else lastParent? history n := by
  have hnodes : ((nodes.map (·, p)).reverse.find? (·.1 == n)).map (·.2) =
      if n ∈ nodes then some p else none := by
    rw [← List.map_reverse, List.find?_map, Option.map_map]
    cases hfind : nodes.reverse.find? ((·.1 == n) ∘ fun m => (m, p)) with
    | none =>
        have hmem : n ∉ nodes := fun hmem =>
          List.find?_eq_none.mp hfind n (List.mem_reverse.mpr hmem) (beq_self_eq_true n)
        rw [if_neg hmem]
        rfl
    | some m =>
        have hfound := List.find?_some hfind
        obtain rfl : m = n := by simpa using hfound
        rw [if_pos (List.mem_reverse.mp (List.mem_of_find?_eq_some hfind))]
        rfl
  rw [lastParent?, List.reverse_append, List.find?_append, lastParent?, Option.map_or, hnodes]
  split <;> rfl

theorem Call.parent?_perform {forest : Forest} {history : List (NodeId × NodeId)} {call : Call}
    (hcall : call.Admissible forest) (h : ∀ n, forest.parent? n = lastParent? history n)
    (n : NodeId) :
    (call.perform forest).1.parent? n = lastParent? (history ++ call.attachments forest) n := by
  rcases perform_cases hcall with ⟨heq, hnone⟩ | ⟨label, nodes, hattached, -, hnodes⟩ |
      ⟨parent, -, hattached, hnodes⟩
  · rw [heq, hnone, List.append_nil, h]
  · -- The new rule node itself has no link, and never had an attachment before.
    have hadd : (forest.add (.rule label) none).1.parent? n = forest.parent? n := by
      rw [Forest.parent?_add]
      split
      · next heq => rw [forest.parent?_eq_none (Nat.le_of_eq heq.symm)]
      · rfl
    rw [hattached.parent?_eq, hnodes, lastParent?_append, hadd, h]
  · have hmap : [(forest.size, parent)] = [forest.size].map (·, parent) := rfl
    rw [hattached.parent?_eq, hnodes, hmap, lastParent?_append, h]

theorem Run.parent?_eq {forest : Forest} {history : List (NodeId × NodeId)}
    (h : Run forest history) (n : NodeId) : forest.parent? n = lastParent? history n := by
  induction h generalizing n with
  | start => rfl
  | call run call admissible ih => exact Call.parent?_perform admissible ih n

/-- In every forest that calls of the builder lead to: no node is below itself, and
every node has a text and a document; the walk up from a node meets no node twice
and ends, and so does the search for a contract; and a parent link leads to the node
of the last attachment, which has the node among its children. -/
theorem Run.links {forest : Forest} {history : List (NodeId × NodeId)}
    (h : Run forest history) :
    (∀ n, ¬ Relation.TransGen forest.IsChild n n) ∧
      (∀ n < forest.size, (∃ text, forest.text n = .ok text) ∧
        ∀ vocabulary, ∃ document, forest.document vocabulary n = .ok document) ∧
      (∀ n < forest.size, forest.Climbs n (forest.ancestors n) ∧
        (n :: forest.ancestors n).Nodup ∧
        forest.ContractSearch (forest.parent? n) (forest.enclosingContract? n)) ∧
      (∀ n p, forest.parent? n = some p → n ∈ forest.children p) ∧
      (∀ n p, forest.parent? n = some p ↔ AttachedLast history n p) := by
  have hlinked := h.linked
  refine ⟨hlinked.acyclic, fun n hn => ⟨?_, fun vocabulary => ?_⟩,
    fun n hn => ⟨hlinked.climbs hn, hlinked.nodup_ancestors hn, ?_⟩,
    fun n p hparent => hlinked.mem_children hparent, fun n p => ?_⟩
  · exact hlinked.textWithin_ok (hlinked.bounded hn)
  · exact hlinked.documentWithin_ok vocabulary (hlinked.bounded hn)
  · exact (hlinked.climbs hn).contractSearch
  · rw [h.parent?_eq, lastParent?_eq_some_iff]

/-- A block is attached twice to a statement, and then to an expression whose making
fails at the text behind it. The link of the block leads to the abandoned expression. -/
theorem Run.links_abandoned :
    ∃ forest history, Run forest history ∧ history = [(0, 1), (0, 1), (0, 2)] ∧
      forest.parent? 0 = some 2 ∧ 0 ∈ forest.children 2 ∧
      (∃ text, forest.text 2 = .ok text) ∧ forest.Climbs 0 (forest.ancestors 0) := by
  let vocabulary := Vocabulary.ofNames [] []
  have htoken : vocabulary.token "?" none = .error (.vocabulary (.noTokenType "?")) := by
    rw [Vocabulary.token, Vocabulary.typeOfText, Vocabulary.tokenType_eq_find?]
    rfl
  let shared : Forest := ⟨#[{ label := .rule (.ofKind .block), parent := some 1 },
    { label := .rule (.ofKind .statement), children := [0, 0] }]⟩
  let failing : Call := .node vocabulary .expression [.node (some 0), .text "?", .node (some 1)]
  have hblock : Run ⟨#[{ label := .rule (.ofKind .block) }]⟩ [] :=
    Run.start.call (.node vocabulary .block []) (by simp [Call.Admissible])
  have hshared : Run shared [(0, 1), (0, 1)] :=
    hblock.call (.node vocabulary .statement [.node (some 0), .node (some 0)])
      (by simp [Call.Admissible, Forest.size])
  have hfailing : failing.attachments shared = [(0, 2)] := by
    have hnodes : vocabulary.attachedNodes 3 [.node (some 0), .text "?", .node (some 1)] =
        [0] := by
      rw [Vocabulary.attachedNodes, Vocabulary.attachedNodes, htoken]
    exact congrArg (List.map (·, 2)) hnodes
  have hrun := hshared.call failing (by simp [Call.Admissible, failing, shared, Forest.size])
  rw [hfailing] at hrun
  obtain ⟨-, htext, hclimbs, hmem, hlast⟩ := Run.links hrun
  have hparent := (hlast 0 2).mpr ⟨[(0, 1), (0, 1)], [], rfl, List.forall_mem_nil _⟩
  have hchild := hmem 0 2 hparent
  have hlinked := hrun.linked
  exact ⟨_, _, hrun, rfl, hparent, hchild,
    (htext 2 (Forest.lt_size_of_isRule (hlinked.isRule hchild))).1,
    (hclimbs 0 (hlinked.child_lt_size hchild)).1⟩

end SolidityLint
