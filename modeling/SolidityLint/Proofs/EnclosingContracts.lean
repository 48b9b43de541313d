import Mathlib.Data.List.Find
import SolidityLint.Forest.Path
import SolidityLint.Proofs.MirroredTrees

/-!
# Enclosing contracts

The search for the contract of a node climbs along parent links. This file says what it finds in
terms that do not mention the links as they are.

In a tree whose nodes were attached once, a node is known by its path, and the nodes above it stand
at the prefixes of the path. So what is found is the contract at the longest proper prefix that
leads to one (`NearestContract`). A path is read from the root down and the search goes up, so the
induction takes places away from the end of the path: the last place less is one link up.

Where nodes are attached again, a link leads away from the tree that the list of children still
shows, and only the links of before can tell the answer. Making a node cuts a walk up at the first
node that is taken as a part, and the new node is put on the end in place of all that was above
(`Relinked.climbs_to`). The new node is a root, so nothing comes after it.
-/

namespace SolidityLint

namespace Forest

variable {forest : Forest}

/-! ## Walks up -/

theorem Climbs.ancestorsWithin_eq {n : NodeId} {above : List NodeId} (h : forest.Climbs n above) :
    ∀ {height : Nat}, above.length ≤ height → forest.ancestorsWithin height n = above := by
  induction h with
  | top hparent =>
      intro height _
      cases height with
      | zero => rfl
      | succ height => rw [ancestorsWithin, hparent]
  | up hparent _ ih =>
      intro height hle
      cases height with
      | zero => exact absurd hle (Nat.not_succ_le_zero _)
      | succ height =>
          rw [ancestorsWithin, hparent]
          simp only [ih (Nat.le_of_succ_le_succ hle)]

theorem Climbs.ancestors_eq {n : NodeId} {above : List NodeId} (h : forest.Climbs n above)
    (hlt : ∀ m ∈ n :: above, m < forest.size) : forest.ancestors n = above :=
  h.ancestorsWithin_eq (Nat.le_of_succ_le (length_le_size h.nodup hlt))

theorem Climbs.enclosingContract?_eq {n : NodeId} {above : List NodeId}
    (h : forest.Climbs n above) (hlt : ∀ m ∈ n :: above, m < forest.size) :
    forest.enclosingContract? n =
      above.find? fun p => forest.kind p == .contractDefinition := by
  rw [enclosingContract?, h.ancestors_eq hlt]

/-! ## Walks up in trees with mirrored links -/

namespace MirroredTree

variable {root : NodeId}

theorem exists_climbs (h : forest.MirroredTree root) {n : NodeId} (hn : forest.InTree root n) :
    ∃ above, forest.Climbs n above ∧ ∀ m ∈ n :: above, m < forest.size := by
  induction hn with
  | refl => exact ⟨[], .top h.root_parent?, List.forall_mem_singleton.mpr h.tree.lt_size⟩
  | @tail p c hp hstep ih =>
      obtain ⟨above, hclimbs, hlt⟩ := ih
      refine ⟨p :: above, .up (h.parent?_eq hp hstep) hclimbs, List.forall_mem_cons.mpr ⟨?_, hlt⟩⟩
      exact (h.tree.of_inTree (hp.tail hstep)).lt_size

theorem enclosingContract?_root (h : forest.MirroredTree root) :
    forest.enclosingContract? root = none := by
  have hclimbs : forest.Climbs root [] := .top h.root_parent?
  rw [hclimbs.enclosingContract?_eq (List.forall_mem_singleton.mpr h.tree.lt_size)]
  rfl

theorem enclosingContract?_child (h : forest.MirroredTree root) {p c : NodeId}
    (hp : forest.InTree root p) (hstep : forest.Descends p c) :
    forest.enclosingContract? c =
      if forest.kind p = .contractDefinition then some p else forest.enclosingContract? p := by
  obtain ⟨above, hclimbs, hlt⟩ := h.exists_climbs hp
  have hc : c < forest.size := (h.tree.of_inTree (hp.tail hstep)).lt_size
  have hup : forest.Climbs c (p :: above) := .up (h.parent?_eq hp hstep) hclimbs
  rw [hup.enclosingContract?_eq (List.forall_mem_cons.mpr ⟨hc, hlt⟩),
    hclimbs.enclosingContract?_eq hlt, List.find?_cons]
  by_cases hkind : forest.kind p = .contractDefinition
  · rw [if_pos hkind, beq_iff_eq.mpr hkind]
  · rw [if_neg hkind, beq_eq_false_iff_ne.mpr hkind]

end MirroredTree

/-! ## Contracts along a path -/

theorem descend_concat {place : Nat} {n : NodeId} {path : Path} :
    ∀ {top : Option NodeId}, forest.descend top (path ++ [place]) = .ok (some n) →
      ∃ p, forest.descend top path = .ok (some p) ∧ n ∈ forest.children p := by
  induction path with
  | nil =>
      intro top h
      cases top with
      | none => cases h
      | some p =>
          injection h with h
          obtain ⟨c, hc, hoccupant⟩ := Option.bind_eq_some_iff.mp h
          cases eq_of_occupant? hoccupant
          exact ⟨p, rfl, List.mem_of_getElem? hc⟩
  | cons first path ih =>
      intro top h
      cases top with
      | none => cases h
      | some q => exact ih h

/-- On the way along a path, and not at its end, a prefix leads to a contract definition. -/
structure ContractOnWay (forest : Forest) (root : NodeId) (path front : Path) (c : NodeId) :
    Prop where
  isPrefix : front <+: path
  ne : front ≠ path
  descend_eq : forest.descend (some root) front = .ok (some c)
  kind_eq : forest.kind c = .contractDefinition

/-- The contract definition that the longest proper prefix of a path leads to, of those
prefixes that lead to one. -/
def NearestContract (forest : Forest) (root : NodeId) (path : Path) (c : NodeId) : Prop :=
  ∃ front, forest.ContractOnWay root path front c ∧
    ∀ other c', forest.ContractOnWay root path other c' → other.length ≤ front.length

section Paths

variable {root : NodeId} {path : Path}

theorem not_contractOnWay_nil {front : Path} {c : NodeId} :
    ¬ forest.ContractOnWay root [] front c :=
  fun h => h.ne (List.prefix_nil.mp h.isPrefix)

/-- A place more on the path puts its old end on the way. -/
theorem contractOnWay_concat {place : Nat} {front : Path} {c : NodeId} :
    forest.ContractOnWay root (path ++ [place]) front c ↔
      forest.ContractOnWay root path front c ∨
        front = path ∧ forest.descend (some root) path = .ok (some c) ∧
          forest.kind c = .contractDefinition := by
  constructor
  · rintro ⟨hfront, hne, hdescend, hkind⟩
    rcases List.prefix_concat_iff.mp hfront with heq | hfront
    · exact absurd heq hne
    · by_cases heq : front = path
      · exact .inr ⟨heq, heq ▸ hdescend, hkind⟩
      · exact .inl ⟨hfront, heq, hdescend, hkind⟩
  · rintro (⟨hfront, -, hdescend, hkind⟩ | ⟨rfl, hdescend, hkind⟩)
    · refine ⟨hfront.trans (List.prefix_append ..), fun heq => ?_, hdescend, hkind⟩
      have hle := hfront.length_le
      rw [heq, List.length_append, List.length_singleton] at hle
      exact Nat.not_succ_le_self _ hle
    · refine ⟨List.prefix_append .., fun heq => ?_, hdescend, hkind⟩
      have hlength := congrArg List.length heq
      rw [List.length_append, List.length_singleton] at hlength
      exact Nat.succ_ne_self _ hlength.symm

theorem NearestContract.unique {c c' : NodeId} (h : forest.NearestContract root path c)
    (h' : forest.NearestContract root path c') : c = c' := by
  obtain ⟨front, hfront, hlongest⟩ := h
  obtain ⟨front', hfront', hlongest'⟩ := h'
  have hlength : front.length = front'.length :=
    Nat.le_antisymm (hlongest' front c hfront) (hlongest front' c' hfront')
  have heq : front = front' :=
    (List.prefix_of_prefix_length_le hfront.isPrefix hfront'.isPrefix
      (Nat.le_of_eq hlength)).eq_of_length hlength
  have hdescend := hfront.descend_eq
  rw [heq, hfront'.descend_eq] at hdescend
  injection hdescend with hdescend
  injection hdescend with hdescend
  exact hdescend.symm

namespace RootedTree

theorem inTree_of_descend (h : forest.RootedTree root) {n : NodeId}
    (hn : forest.descend (some root) path = .ok (some n)) : forest.InTree root n := by
  induction path using List.reverseRecOn generalizing n with
  | nil =>
      cases hn
      exact .refl
  | append_singleton path place ih =>
      obtain ⟨p, hp, hmem⟩ := descend_concat hn
      exact (ih hp).tail ⟨h.isRule (ih hp) hmem, hmem⟩

/-- What the search answers is right in either case, whether it finds a contract or none. -/
theorem enclosingContract?_sound (h : forest.RootedTree root) {n : NodeId}
    (hn : forest.descend (some root) path = .ok (some n)) :
    (∀ c, forest.enclosingContract? n = some c → forest.NearestContract root path c) ∧
      (forest.enclosingContract? n = none →
        ∀ front c, ¬ forest.ContractOnWay root path front c) := by
  induction path using List.reverseRecOn generalizing n with
  | nil =>
      cases hn
      rw [h.enclosingContract?_root]
      exact ⟨fun c hc => absurd hc (Option.some_ne_none c).symm, fun _ _ _ => not_contractOnWay_nil⟩
  | append_singleton path place ih =>
      obtain ⟨p, hp, hmem⟩ := descend_concat hn
      have hin := h.inTree_of_descend hp
      obtain ⟨hsome, hnone⟩ := ih hp
      rw [h.enclosingContract?_child hin ⟨h.isRule hin hmem, hmem⟩]
      by_cases hkind : forest.kind p = .contractDefinition
      · rw [if_pos hkind]
        refine ⟨fun c hc => ?_, fun hc => nomatch hc⟩
        cases hc
        refine ⟨path, contractOnWay_concat.mpr (.inr ⟨rfl, hp, hkind⟩), fun other c hother => ?_⟩
        rcases contractOnWay_concat.mp hother with hother | ⟨rfl, -, -⟩
        · exact hother.isPrefix.length_le
        · exact Nat.le_refl _
      · rw [if_neg hkind]
        -- The node one link up is no contract, so the end that was added is on no way to one.
        have hsame : ∀ front c, forest.ContractOnWay root (path ++ [place]) front c →
            forest.ContractOnWay root path front c := by
          intro front c hfront
          rcases contractOnWay_concat.mp hfront with hfront | ⟨-, hdescend, hkind'⟩
          · exact hfront
          · rw [hp] at hdescend
            cases hdescend
            exact absurd hkind' hkind
        refine ⟨fun c hc => ?_, fun hc front c hfront => hnone hc front c (hsame front c hfront)⟩
        obtain ⟨front, hfront, hlongest⟩ := hsome c hc
        exact ⟨front, contractOnWay_concat.mpr (.inl hfront),
          fun other c' hother => hlongest other c' (hsame other c' hother)⟩

theorem enclosingContract?_eq_some_iff (h : forest.RootedTree root) {n c : NodeId}
    (hn : forest.descend (some root) path = .ok (some n)) :
    forest.enclosingContract? n = some c ↔ forest.NearestContract root path c := by
  obtain ⟨hsome, hnone⟩ := h.enclosingContract?_sound hn
  refine ⟨hsome c, fun hnearest => ?_⟩
  cases hfound : forest.enclosingContract? n with
  | some c' => rw [(hsome c' hfound).unique hnearest]
  | none =>
      obtain ⟨front, hfront, -⟩ := hnearest
      exact absurd hfront (hnone hfound front c)

theorem enclosingContract?_eq_none_iff (h : forest.RootedTree root) {n : NodeId}
    (hn : forest.descend (some root) path = .ok (some n)) :
    forest.enclosingContract? n = none ↔
      ∀ front c, ¬ forest.ContractOnWay root path front c := by
  obtain ⟨hsome, hnone⟩ := h.enclosingContract?_sound hn
  refine ⟨hnone, fun hall => ?_⟩
  cases hfound : forest.enclosingContract? n with
  | none => rfl
  | some c =>
      obtain ⟨front, hfront, -⟩ := hsome c hfound
      exact absurd hfront (hall front c)

end RootedTree

end Paths

theorem outcome_enclosingContract (forest : Forest) (n : NodeId) :
    (forest.enclosingContract n).outcome =
      match forest.enclosingContract? n with
      | some c => .ok c
      | none => (forest.text n).bind fun text => .error (.missingContract text) := by
  rw [enclosingContract]
  cases forest.enclosingContract? n with
  | some c => rfl
  | none =>
      simp only [readText, Checked.outcome_bind, Checked.outcome_ofExcept,
        Checked.outcome_monadLift]
      rfl

/-- In a tree whose nodes were attached once, the contract of the node at a path is the one at
the longest proper prefix that leads to one. There is none exactly if no proper prefix does; a
search that must succeed then fails and reports the text of the node. -/
theorem BuiltOnce.enclosing_nearest {root : NodeId} (h : forest.BuiltOnce root) {path : Path}
    {n : NodeId} (hn : forest.descend (some root) path = .ok (some n)) :
    (∀ c, forest.enclosingContract? n = some c ↔ forest.NearestContract root path c) ∧
      (forest.enclosingContract? n = none ↔
        ∀ front c, ¬ forest.ContractOnWay root path front c) ∧
      (∀ c, forest.enclosingContract? n = some c → (forest.enclosingContract n).outcome = .ok c) ∧
      (forest.enclosingContract? n = none → ∃ text, forest.text n = .ok text ∧
        (forest.enclosingContract n).outcome = .error (.missingContract text)) := by
  have hrooted := h.rootedTree
  refine ⟨fun c => hrooted.enclosingContract?_eq_some_iff hn,
    hrooted.enclosingContract?_eq_none_iff hn, fun c hc => ?_, fun hnone => ?_⟩
  · rw [outcome_enclosingContract, hc]
  · obtain ⟨text, htext⟩ := (hrooted.tree.of_inTree (hrooted.inTree_of_descend hn)).text_ok
    refine ⟨text, htext, ?_⟩
    rw [outcome_enclosingContract, hnone, htext]
    rfl

/-- A token in a contract in a contract. The inner contract is nearer to the token, and it is not
its own; the outer one has none. -/
theorem BuiltOnce.enclosing_nearest_nested :
    let forest : Forest := ⟨#[
      { label := .token ⟨7, "x"⟩ false, parent := some 1 },
      { label := .rule (.ofKind .contractDefinition), children := [0], parent := some 2 },
      { label := .rule (.ofKind .contractDefinition), children := [1] }]⟩
    forest.BuiltOnce 2 ∧ forest.NearestContract 2 [0, 0] 1 ∧ forest.NearestContract 2 [0] 2 ∧
      (forest.enclosingContract 0).outcome = .ok 1 ∧
      (forest.enclosingContract 1).outcome = .ok 2 ∧
      (forest.enclosingContract 2).outcome = .error (.missingContract "x") := by
  intro forest
  have hbuilt : forest.BuiltOnce 2 := by
    let inner := Sketch.rule .contractDefinition [.token "x" (.exactly 7) false]
    have hinner : inner.Fresh := .rule _ (List.forall_mem_singleton.mpr (.token ..))
    have hplant : plant (Vocabulary.ofNames [] []) {} (.rule .contractDefinition [inner]) =
        (forest, .ok (.node (some 2))) := rfl
    exact .nested (.rule _ (List.forall_mem_singleton.mpr hinner)) hplant (.refl forest)
  have htokenAt : forest.descend (some 2) [0, 0] = .ok (some 0) := rfl
  have hinnerAt : forest.descend (some 2) [0] = .ok (some 1) := rfl
  have hrootAt : forest.descend (some 2) [] = .ok (some 2) := rfl
  obtain ⟨htoken, -, hfound, -⟩ := BuiltOnce.enclosing_nearest hbuilt htokenAt
  obtain ⟨hinner, -, hfound', -⟩ := BuiltOnce.enclosing_nearest hbuilt hinnerAt
  obtain ⟨-, hroot, -, hmissing⟩ := BuiltOnce.enclosing_nearest hbuilt hrootAt
  obtain ⟨text, htext, hfault⟩ := hmissing (hroot.mpr fun _ _ => not_contractOnWay_nil)
  cases htext
  exact ⟨hbuilt, (htoken 1).mp rfl, (hinner 2).mp rfl, hfound 1 rfl, hfound' 2 rfl, hfault⟩

/-! ## Walks up after nodes are attached again -/

theorem Linked.lt_size_of_climbs (h : forest.Linked) {n : NodeId} {above : List NodeId}
    (hclimbs : forest.Climbs n above) : ∀ m ∈ above, m < forest.size := by
  induction hclimbs with
  | top _ => exact List.forall_mem_nil _
  | up hparent _ ih =>
      exact List.forall_mem_cons.mpr ⟨lt_size_of_isRule (h.isRule (h.mem_children hparent)), ih⟩

section Relinked

variable {before after : Forest} {parts : List Part} {parent : NodeId}
  (h : Relinked before after parts parent)

include h

theorem Relinked.climbs_free {n : NodeId} {above : List NodeId} (hclimbs : before.Climbs n above)
    (hlt : ∀ m ∈ n :: above, m < before.size)
    (hfree : ∀ m ∈ n :: above, .node (some m) ∉ parts) : after.Climbs n above := by
  induction hclimbs with
  | @top n hparent =>
      have hkept := h.kept n (hlt n List.mem_cons_self) (hfree n List.mem_cons_self)
      exact .top (hkept.trans hparent)
  | @up n p above hparent _ ih =>
      have hkept := h.kept n (hlt n List.mem_cons_self) (hfree n List.mem_cons_self)
      exact .up (hkept.trans hparent)
        (ih (List.forall_mem_cons.mp hlt).2 (List.forall_mem_cons.mp hfree).2)

/-- The walk is as before up to the first part on it, and then comes the new parent. -/
theorem Relinked.climbs_to (hroot : after.parent? parent = none) {c : NodeId}
    (hpart : .node (some c) ∈ parts) {below above : List NodeId} :
    ∀ {n : NodeId} {met : List NodeId}, before.Climbs n met → n :: met = below ++ c :: above →
      (∀ m ∈ below, m < before.size) → (∀ m ∈ below, .node (some m) ∉ parts) →
      after.Climbs n ((below ++ [c]).tail ++ [parent]) := by
  induction below with
  | nil =>
      intro n met _ heq _ _
      injection heq with hn _
      rw [hn]
      exact .up (h.moved c hpart).1 (.top hroot)
  | cons first below ih =>
      intro n met hclimbs heq hlt hfree
      injection heq with hn hmet
      subst hn
      obtain ⟨hlt, hlt'⟩ := List.forall_mem_cons.mp hlt
      obtain ⟨hfree, hfree'⟩ := List.forall_mem_cons.mp hfree
      cases hclimbs with
      | top _ =>
          have hne : below ++ c :: above ≠ [] := List.append_ne_nil_of_right_ne_nil _ (by simp)
          exact absurd hmet.symm hne
      | @up _ p met hparent rest =>
          have hhead : below ++ [c] = p :: (below ++ [c]).tail := by
            cases below with
            | nil =>
                injection hmet with hp _
                rw [hp]
                rfl
            | cons second below =>
                injection hmet with hp _
                rw [hp]
                rfl
          rw [List.cons_append, List.tail_cons, hhead]
          exact .up ((h.kept n hlt hfree).trans hparent) (ih rest hmet hlt' hfree')

end Relinked

section Grown

variable {before after : Forest} {vocabulary : Vocabulary} {kind : Kind} {parts : List Part}
  (hbefore : before.Linked) (hlt : ∀ n, .node (some n) ∈ parts → n < before.size)
  (h : Grown before after vocabulary (.ofKind kind) parts) {n : NodeId} {met : List NodeId}
  (hclimbs : before.Climbs n met) (hmet : ∀ m ∈ n :: met, m < before.size)

theorem Extends.find?_contract_eq (h : Extends before after) {nodes : List NodeId}
    (hlt : ∀ m ∈ nodes, m < before.size) :
    (nodes.find? fun m => after.kind m == .contractDefinition) =
      nodes.find? fun m => before.kind m == .contractDefinition := by
  refine List.find?_congr fun m hm => ?_
  rw [h.kind_eq (hlt m hm)]

include hbefore hlt h hclimbs hmet

theorem Grown.enclosingContract?_of_free (hfree : ∀ m ∈ n :: met, .node (some m) ∉ parts) :
    after.enclosingContract? n = before.enclosingContract? n := by
  have hsame := (h.relinked hbefore hlt).climbs_free hclimbs hmet hfree
  have hsize : ∀ m ∈ n :: met, m < after.size :=
    fun m hm => Nat.lt_of_lt_of_le (hmet m hm) h.extended.size_le
  rw [hsame.enclosingContract?_eq hsize, hclimbs.enclosingContract?_eq hmet,
    h.extended.find?_contract_eq (List.forall_mem_cons.mp hmet).2]

theorem Grown.enclosingContract?_of_part {c : NodeId} {below above : List NodeId}
    (heq : n :: met = below ++ c :: above) (hfree : ∀ m ∈ below, .node (some m) ∉ parts)
    (hpart : .node (some c) ∈ parts) :
    after.enclosingContract? n =
      ((below ++ [c]).tail.find? fun m => before.kind m == .contractDefinition).or
        (if kind = .contractDefinition then some before.size else none) := by
  have hfront : ∀ m ∈ below ++ [c], m < before.size := by
    intro m hm
    refine hmet m ?_
    rw [heq, List.append_cons]
    exact List.mem_append_left _ hm
  have htail : ∀ m ∈ (below ++ [c]).tail, m < before.size :=
    fun m hm => hfront m (List.mem_of_mem_tail hm)
  have hto : after.Climbs n ((below ++ [c]).tail ++ [before.size]) :=
    (h.relinked hbefore hlt).climbs_to (h.parent?_size hlt) hpart hclimbs heq
      (fun m hm => hfront m (List.mem_append_left _ hm)) hfree
  have hsize : ∀ m ∈ n :: ((below ++ [c]).tail ++ [before.size]), m < after.size := by
    intro m hm
    rcases List.mem_cons.mp hm with rfl | hm
    · exact Nat.lt_of_lt_of_le (hmet m List.mem_cons_self) h.extended.size_le
    · rcases List.mem_append.mp hm with hm | hm
      · exact Nat.lt_of_lt_of_le (htail m hm) h.extended.size_le
      · rw [List.mem_singleton.mp hm]
        exact h.lt_size
  have hkind : after.kind before.size = kind := h.kind_size
  rw [hto.enclosingContract?_eq hsize, List.find?_append, h.extended.find?_contract_eq htail,
    List.find?_singleton, hkind]
  simp only [beq_iff_eq]

end Grown

end Forest

/-- Making a node of others, and the contracts of the nodes that were there. Of the walk up that
a node had, the part up to the first node that is taken stays; if none is taken, all of it does,
and so does the answer. Else the first contract on what stays is answered, without the node
itself; then the new node, if it is a contract; and then none, whatever was further up. -/
theorem Run.enclosingContract?_grow {forest : Forest} {history : List (NodeId × NodeId)}
    (h : Run forest history) {vocabulary : Vocabulary} {kind : Kind} {parts : List Part}
    (hparts : ∀ part ∈ parts, part.Given forest) {after : Forest} {p : NodeId}
    (hgrow : forest.grow vocabulary kind parts = (after, .ok p)) {n : NodeId}
    (hn : n < forest.size) :
    forest.Climbs n (forest.ancestors n) ∧
      ((∀ m ∈ n :: forest.ancestors n, .node (some m) ∉ parts) →
        after.enclosingContract? n = forest.enclosingContract? n) ∧
      ∀ below c above, n :: forest.ancestors n = below ++ c :: above →
        (∀ m ∈ below, .node (some m) ∉ parts) → .node (some c) ∈ parts →
        after.enclosingContract? n =
          ((below ++ [c]).tail.find? fun m => forest.kind m == .contractDefinition).or
            (if kind = .contractDefinition then some p else none) := by
  have hlinked := h.linked
  have hlt : ∀ n, .node (some n) ∈ parts → n < forest.size := fun n hn => (hparts _ hn).lt_size
  have hclimbs := hlinked.climbs hn
  have hmet : ∀ m ∈ n :: forest.ancestors n, m < forest.size :=
    List.forall_mem_cons.mpr ⟨hn, hlinked.lt_size_of_climbs hclimbs⟩
  obtain ⟨rfl, hgrown⟩ := Forest.Grown.of_grow hlt hgrow
  exact ⟨hclimbs, hgrown.enclosingContract?_of_free hlinked hlt hclimbs hmet,
    fun below c above => hgrown.enclosingContract?_of_part hlinked hlt hclimbs hmet⟩

/-- A block in a function in a contract. A second contract is made of the first and of the function.
The walk up from the block is cut at the function, so that the second is its contract and the first
is so no more, though it is below the second too. -/
theorem Run.enclosingContract?_grow_taken :
    let vocabulary := Vocabulary.ofNames [] []
    let forest : Forest := ⟨#[
      { label := .rule (.ofKind .block), parent := some 1 },
      { label := .rule (.ofKind .functionDefinition), children := [0], parent := some 2 },
      { label := .rule (.ofKind .contractDefinition), children := [1] }]⟩
    let parts := [Part.node (some 2), .node (some 1)]
    Run forest [(0, 1), (1, 2)] ∧ (∀ part ∈ parts, part.Given forest) ∧
      forest.enclosingContract? 0 = some 2 ∧
      ∃ after, forest.grow vocabulary .contractDefinition parts = (after, .ok 3) ∧
        after.enclosingContract? 0 = some 3 ∧ after.enclosingContract? 2 = some 3 := by
  intro vocabulary forest parts
  have hblock : Run ⟨#[{ label := .rule (.ofKind .block) }]⟩ [] :=
    Run.start.call (.node vocabulary .block []) (by simp [Call.Admissible])
  have hfunction : Run ⟨#[{ label := .rule (.ofKind .block), parent := some 1 },
      { label := .rule (.ofKind .functionDefinition), children := [0] }]⟩ [(0, 1)] :=
    hblock.call (.node vocabulary .functionDefinition [.node (some 0)])
      (by simp [Call.Admissible, Forest.size])
  have hrun : Run forest [(0, 1), (1, 2)] :=
    hfunction.call (.node vocabulary .contractDefinition [.node (some 1)])
      (by simp [Call.Admissible, Forest.size])
  have hparts : ∀ part ∈ parts, part.Given forest := by
    simp only [parts, List.forall_mem_cons]
    exact ⟨.node (by decide), .node (by decide), List.forall_mem_nil _⟩
  have hgrow : forest.grow vocabulary .contractDefinition parts = (_, .ok 3) := rfl
  obtain ⟨-, -, hblock⟩ := Run.enclosingContract?_grow hrun hparts hgrow (n := 0) (by decide)
  obtain ⟨-, -, hcontract⟩ := Run.enclosingContract?_grow hrun hparts hgrow (n := 2) (by decide)
  exact ⟨hrun, hparts, rfl, _, hgrow, hblock [0] 1 [2] rfl (by decide) (by decide),
    hcontract [] 2 [] rfl (by decide) (by decide)⟩

end SolidityLint
