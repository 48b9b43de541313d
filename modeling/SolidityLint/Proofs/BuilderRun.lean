import SolidityLint.Forest.Lemmas

/-!
# Runs of the builder

A forest is built by calls: a rule node is made from parts, or a terminal is put
below a rule node. A call can fail halfway, and what it did until then stays. So
there is no use in speaking of successful calls only. This file says what any call
does, and what follows for any sequence of calls is derived from that.

Attaching is the one thing that changes links. `AttachedBelow` says what a row of
attachments to one parent leaves behind: the parent has the nodes behind the
children that it had, the nodes have the parent, and what is new are terminals.
Rows put together are a row again, so `attachAll` needs no more than its two
single steps. `perform_cases` then says that a call does nothing, or adds a rule
node and attaches a row below it, or attaches one terminal below a rule node.

`Run` records every attachment beside the forest, in the order of time. The record
is read off the calls, not off the links: `attachments` looks at the parts only.
-/

namespace SolidityLint

namespace Forest

/-- What attaching nodes below a parent, one after the other, leaves behind. -/
structure AttachedBelow (before after : Forest) (parent : NodeId) (nodes : List NodeId) :
    Prop where
  size_le : before.size ≤ after.size
  label?_eq : ∀ n < before.size, after.label? n = before.label? n
  fresh : ∀ n, before.size ≤ n → n < after.size →
    n ∈ nodes ∧ ∃ token, after.label? n = some (.token token false)
  lt_size : ∀ n ∈ nodes, n < after.size
  children_eq : ∀ n, after.children n =
    if parent = n then before.children n ++ nodes else before.children n
  parent?_eq : ∀ n, after.parent? n = if n ∈ nodes then some parent else before.parent? n

theorem AttachedBelow.refl (forest : Forest) (parent : NodeId) :
    AttachedBelow forest forest parent [] where
  size_le := Nat.le_refl _
  label?_eq _ _ := rfl
  fresh n h h' := absurd h (Nat.not_le.mpr h')
  lt_size n h := nomatch h
  children_eq n := by rw [List.append_nil, ite_self]
  parent?_eq n := by rw [if_neg List.not_mem_nil]

theorem AttachedBelow.trans {first second third : Forest} {parent : NodeId}
    {nodes others : List NodeId} (h : AttachedBelow first second parent nodes)
    (h' : AttachedBelow second third parent others) :
    AttachedBelow first third parent (nodes ++ others) where
  size_le := Nat.le_trans h.size_le h'.size_le
  label?_eq n hn := by
    rw [h'.label?_eq n (Nat.lt_of_lt_of_le hn h.size_le), h.label?_eq n hn]
  fresh n hle hlt := by
    rcases Nat.lt_or_ge n second.size with hn | hn
    · obtain ⟨hmem, token, htoken⟩ := h.fresh n hle hn
      exact ⟨List.mem_append_left _ hmem, token, (h'.label?_eq n hn).trans htoken⟩
    · obtain ⟨hmem, htoken⟩ := h'.fresh n hn hlt
      exact ⟨List.mem_append_right _ hmem, htoken⟩
  lt_size n hmem := by
    rcases List.mem_append.mp hmem with hn | hn
    · exact Nat.lt_of_lt_of_le (h.lt_size n hn) h'.size_le
    · exact h'.lt_size n hn
  children_eq n := by
    rw [h'.children_eq, h.children_eq]
    split
    · rw [List.append_assoc]
    · rfl
  parent?_eq n := by
    rw [h'.parent?_eq, h.parent?_eq]
    by_cases hn : n ∈ nodes <;> by_cases hn' : n ∈ others <;> simp [hn, hn']

theorem adopt_attachedBelow {forest : Forest} {parent child : NodeId}
    (hparent : parent < forest.size) (hchild : child < forest.size) :
    AttachedBelow forest (forest.adopt parent child) parent [child] where
  size_le := Nat.le_of_eq (size_adopt ..).symm
  label?_eq n _ := label?_adopt ..
  fresh n hle hlt := by
    rw [size_adopt] at hlt
    exact absurd hle (Nat.not_le.mpr hlt)
  lt_size n hn := by
    rw [size_adopt, List.mem_singleton.mp hn]
    exact hchild
  children_eq n := children_adopt forest child n hparent
  parent?_eq n := by
    rw [parent?_adopt forest parent n hchild]
    simp only [List.mem_singleton, eq_comm]

theorem addTerminal_attachedBelow {forest : Forest} {parent : NodeId}
    (hparent : parent < forest.size) (token : Token) :
    AttachedBelow forest (forest.addTerminal parent token).1 parent [forest.size] where
  size_le := by rw [size_addTerminal]; exact Nat.le_succ _
  label?_eq n hn := by rw [label?_addTerminal, if_neg (Nat.ne_of_lt hn)]
  fresh n hle hlt := by
    rw [size_addTerminal] at hlt
    obtain rfl : n = forest.size := by omega
    exact ⟨List.mem_singleton_self _, token, by rw [label?_addTerminal, if_pos rfl]⟩
  lt_size n hn := by
    rw [size_addTerminal, List.mem_singleton.mp hn]
    exact Nat.lt_succ_self _
  children_eq n := children_addTerminal forest token n hparent
  parent?_eq n := by rw [parent?_addTerminal]; simp only [List.mem_singleton]

end Forest

/-! ## The parts of a rule node -/

/-- The nodes that parts are attached as, up to the first part that cannot be
attached. The texts become new nodes, numbered from `fresh` on. -/
def Vocabulary.attachedNodes (vocabulary : Vocabulary) (fresh : NodeId) :
    List Part → List NodeId
  | [] => []
  | .text text :: rest =>
    match vocabulary.token text none with
    | .ok _ => fresh :: vocabulary.attachedNodes (fresh + 1) rest
    | .error _ => []
  | .node (some child) :: rest => child :: vocabulary.attachedNodes fresh rest
  | .node none :: _ => []

theorem Vocabulary.mem_attachedNodes {vocabulary : Vocabulary} {parts : List Part} {n : NodeId} :
    ∀ {fresh : NodeId}, n ∈ vocabulary.attachedNodes fresh parts →
      .node (some n) ∈ parts ∨ fresh ≤ n := by
  induction parts with
  | nil => intro fresh h; cases h
  | cons part rest ih =>
      intro fresh h
      rw [attachedNodes.eq_def] at h
      split at h
      · next heq => cases heq
      · next text rest' heq =>
          cases heq
          split at h
          · rcases List.mem_cons.mp h with rfl | h
            · exact Or.inr (Nat.le_refl _)
            · rcases ih h with hmem | hle
              · exact Or.inl (List.mem_cons_of_mem _ hmem)
              · exact Or.inr (Nat.le_of_succ_le hle)
          · cases h
      · next child rest' heq =>
          cases heq
          rcases List.mem_cons.mp h with rfl | h
          · exact Or.inl List.mem_cons_self
          · rcases ih h with hmem | hle
            · exact Or.inl (List.mem_cons_of_mem _ hmem)
            · exact Or.inr hle
      · cases h

/-- Attaching the parts leaves behind what attaching their nodes does, whether or
not a part fails. -/
theorem Forest.attachAll_attachedBelow {vocabulary : Vocabulary} {parent : NodeId}
    {parts : List Part} :
    ∀ {forest : Forest}, parent < forest.size →
      (∀ n, .node (some n) ∈ parts → n < forest.size) →
      AttachedBelow forest (forest.attachAll vocabulary parent parts).1 parent
        (vocabulary.attachedNodes forest.size parts) := by
  induction parts with
  | nil => intro forest _ _; exact .refl forest parent
  | cons part rest ih =>
      intro forest hparent hparts
      have hrest : ∀ n, .node (some n) ∈ rest → n < forest.size :=
        fun n hn => hparts n (List.mem_cons_of_mem _ hn)
      rw [attachAll]
      match part with
      | .text text =>
          rw [attach, Vocabulary.attachedNodes]
          cases htoken : vocabulary.token text none with
          | error fault => exact .refl forest parent
          | ok token =>
              have hfirst := addTerminal_attachedBelow hparent token
              have hsize : (forest.addTerminal parent token).1.size = forest.size + 1 :=
                size_addTerminal ..
              have hnext := ih (Nat.lt_of_lt_of_le hparent hfirst.size_le)
                fun n hn => Nat.lt_of_lt_of_le (hrest n hn) hfirst.size_le
              rw [hsize] at hnext
              exact hfirst.trans hnext
      | .node (some child) =>
          have hfirst := adopt_attachedBelow hparent (hparts child List.mem_cons_self)
          have hsize : (forest.adopt parent child).size = forest.size := size_adopt ..
          have hnext := ih (Nat.lt_of_lt_of_le hparent hfirst.size_le)
            fun n hn => Nat.lt_of_lt_of_le (hrest n hn) hfirst.size_le
          rw [hsize] at hnext
          exact hfirst.trans hnext
      | .node none => exact .refl forest parent

theorem Forest.growLabelled_fst (forest : Forest) (vocabulary : Vocabulary) (label : RuleLabel)
    (parts : List Part) :
    (forest.growLabelled vocabulary label parts).1 =
      ((forest.add (.rule label) none).1.attachAll vocabulary forest.size parts).1 := by
  simp only [growLabelled, add_snd]
  split
  · next after hall => rw [hall]
  · next after fault hall => rw [hall]

theorem Forest.growLabelled_attachedBelow {forest : Forest} {vocabulary : Vocabulary}
    {label : RuleLabel} {parts : List Part}
    (h : ∀ n, .node (some n) ∈ parts → n < forest.size) :
    AttachedBelow (forest.add (.rule label) none).1
      (forest.growLabelled vocabulary label parts).1 forest.size
      (vocabulary.attachedNodes (forest.size + 1) parts) := by
  have hsize : (forest.add (.rule label) none).1.size = forest.size + 1 := size_add ..
  rw [growLabelled_fst, ← hsize]
  refine attachAll_attachedBelow ?_ fun n hn => ?_
  · rw [hsize]
    exact Nat.lt_succ_self _
  · rw [hsize]
    exact Nat.lt_succ_of_lt (h n hn)

/-! ## Calls and runs -/

/-- A call of the builder. -/
inductive Call where
  /-- Makes a rule node of a kind from parts. -/
  | node (vocabulary : Vocabulary) (kind : Kind) (parts : List Part)
  /-- Makes a terminal below a node. -/
  | terminal (vocabulary : Vocabulary) (parent : Option NodeId) (text : String)
      (symbol : Option String)

namespace Call

/-- The forest after a call, and its outcome. -/
def perform (forest : Forest) : Call → Forest × Except Fault NodeId
  | .node vocabulary kind parts => forest.grow vocabulary kind parts
  | .terminal vocabulary parent text symbol =>
    forest.growTerminal vocabulary parent text symbol

/-- The nodes among the parts were made before. -/
def Admissible (forest : Forest) : Call → Prop
  | .node _ _ parts => ∀ n, .node (some n) ∈ parts → n < forest.size
  | .terminal .. => True

/-- The attachments that a call makes, in order, each a child with its parent. -/
def attachments (forest : Forest) : Call → List (NodeId × NodeId)
  | .node vocabulary kind parts =>
    if kind.isRule then
      (vocabulary.attachedNodes (forest.size + 1) parts).map (·, forest.size)
    else []
  | .terminal vocabulary parent text symbol =>
    match parent.filter forest.isRule, vocabulary.token text symbol with
    | some parent, .ok _ => [(forest.size, parent)]
    | _, _ => []

/-- All that a call can do, whether it succeeds or fails. -/
theorem perform_cases {forest : Forest} {call : Call} (h : call.Admissible forest) :
    ((call.perform forest).1 = forest ∧ call.attachments forest = []) ∨
    (∃ label nodes,
      Forest.AttachedBelow (forest.add (.rule label) none).1 (call.perform forest).1
        forest.size nodes ∧
      (∀ n ∈ nodes, n < forest.size ∨ forest.size < n) ∧
      call.attachments forest = nodes.map (·, forest.size)) ∨
    (∃ parent, forest.isRule parent = true ∧
      Forest.AttachedBelow forest (call.perform forest).1 parent [forest.size] ∧
      call.attachments forest = [(forest.size, parent)]) := by
  match call with
  | .node vocabulary kind parts =>
      rw [perform, Forest.grow, attachments]
      split
      · refine Or.inr (Or.inl ⟨.ofKind kind, _, Forest.growLabelled_attachedBelow h, ?_, rfl⟩)
        intro n hn
        rcases Vocabulary.mem_attachedNodes hn with hmem | hle
        · exact Or.inl (h n hmem)
        · exact Or.inr hle
      · exact Or.inl ⟨rfl, rfl⟩
  | .terminal vocabulary parent text symbol =>
      rw [perform, Forest.growTerminal, attachments]
      cases hparent : parent.filter forest.isRule with
      | none => exact Or.inl ⟨rfl, rfl⟩
      | some parent =>
          have hrule : forest.isRule parent = true := (Option.filter_eq_some_iff.mp hparent).2
          cases htoken : vocabulary.token text symbol with
          | error fault => exact Or.inl ⟨rfl, rfl⟩
          | ok token =>
              exact Or.inr (Or.inr ⟨parent, hrule,
                Forest.addTerminal_attachedBelow (Forest.lt_size_of_isRule hrule) token, rfl⟩)

end Call

/-- The forests that calls lead to from the empty one, each with the attachments
made on the way, in the order of time. -/
inductive Run : Forest → List (NodeId × NodeId) → Prop where
  | start : Run {} []
  | call {forest : Forest} {history : List (NodeId × NodeId)} (run : Run forest history)
      (call : Call) (admissible : call.Admissible forest) :
      Run (call.perform forest).1 (history ++ call.attachments forest)

end SolidityLint
