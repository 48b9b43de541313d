import SolidityLint.Proofs.Links

/-!
# What making a node changes

A node is made of texts and of nodes that are there. The nodes may stand below other nodes
already, they may stand above each other, and one may be given twice; and the first text that
has no type ends the making halfway. `Grown` says what a call that succeeds leaves behind: a
new node with the parts for its children, terminals for the texts, and for everything that was
there nothing but a new parent link, if it was one of the parts.

No second account is needed of calls that fail. Attaching goes from left to right and takes
nothing back, so a call that fails at a part leaves behind what the call with the parts in front
of it does (`growLabelled_refused`), only that the node is not answered. It is a new one, and
what stands below it was there before, so it is below nothing.

What is there keeps its label and its children (`Extends`). Hence it keeps its text and its
documents: the walks that read them go down, and do not leave the old nodes. They are bounded by
the number of nodes, which has grown, but what is found within a bound is found within every
larger one.
-/

namespace SolidityLint

theorem exists_of_mem_right {α β : Type} {R : α → β → Prop} {as : List α} {bs : List β}
    (h : List.Forall₂ R as bs) : ∀ b ∈ bs, ∃ a ∈ as, R a b := by
  induction h with
  | nil => exact List.forall_mem_nil _
  | @cons a b as bs hab _ ih =>
      refine List.forall_mem_cons.mpr ⟨⟨a, List.mem_cons_self, hab⟩, ?_⟩
      intro b' hb'
      obtain ⟨a', ha', hab'⟩ := ih b' hb'
      exact ⟨a', List.mem_cons_of_mem _ ha', hab'⟩

/-! ## Parts -/

/-- A part that can be attached. -/
inductive Part.Attachable (vocabulary : Vocabulary) : Part → Prop where
  | text {text : String} {token : Token} (h : vocabulary.token text none = .ok token) :
      Attachable vocabulary (.text text)
  | node (n : NodeId) : Attachable vocabulary (.node (some n))

/-- A part that cannot be attached, and why. -/
inductive Part.Refused (vocabulary : Vocabulary) : Part → Fault → Prop where
  | text {text : String} {fault : Fault} (h : vocabulary.token text none = .error fault) :
      Refused vocabulary (.text text) fault
  | absent : Refused vocabulary (.node none) .notOffered

/-- A text, or a node that is there. -/
inductive Part.Given (forest : Forest) : Part → Prop where
  | text (text : String) : Given forest (.text text)
  | node {n : NodeId} (h : n < forest.size) : Given forest (.node (some n))

theorem Part.Given.lt_size {forest : Forest} {n : NodeId}
    (h : (Part.node (some n)).Given forest) : n < forest.size := by
  cases h with
  | node hn => exact hn

theorem Part.attachable_or_refused (vocabulary : Vocabulary) (part : Part) :
    part.Attachable vocabulary ∨ ∃ fault, part.Refused vocabulary fault := by
  cases part with
  | text text =>
      cases htoken : vocabulary.token text none with
      | ok token => exact .inl (.text htoken)
      | error fault => exact .inr ⟨fault, .text htoken⟩
  | node child =>
      cases child with
      | some n => exact .inl (.node n)
      | none => exact .inr ⟨.notOffered, .absent⟩

/-- Where not all parts can be attached, there is a first that cannot. -/
theorem Part.exists_first_refused (vocabulary : Vocabulary) (parts : List Part) :
    (∀ part ∈ parts, part.Attachable vocabulary) ∨
      ∃ front part rest fault, parts = front ++ part :: rest ∧
        (∀ part ∈ front, part.Attachable vocabulary) ∧ part.Refused vocabulary fault := by
  induction parts with
  | nil => exact .inl (List.forall_mem_nil _)
  | cons first parts ih =>
      rcases first.attachable_or_refused vocabulary with hfirst | ⟨fault, hfault⟩
      · rcases ih with hall | ⟨front, part, rest, fault, rfl, hfront, hpart⟩
        · exact .inl (List.forall_mem_cons.mpr ⟨hfirst, hall⟩)
        · exact .inr ⟨first :: front, part, rest, fault, rfl,
            List.forall_mem_cons.mpr ⟨hfirst, hfront⟩, hpart⟩
      · exact .inr ⟨[], first, parts, fault, rfl, List.forall_mem_nil _, hfault⟩

/-- Nothing but the vocabulary stands in the way of a text. -/
theorem Vocabulary.exists_fault_of_token {vocabulary : Vocabulary} {text : String} {fault : Fault}
    (h : vocabulary.token text none = .error fault) : ∃ cause, fault = .vocabulary cause := by
  have hsymbol : ∀ symbol, vocabulary.requireSymbol symbol = .error fault →
      ∃ cause, fault = .vocabulary cause := by
    intro symbol hsymbol
    rw [requireSymbol] at hsymbol
    split at hsymbol
    · cases hsymbol
      exact ⟨_, rfl⟩
    · cases hsymbol
  have htype : vocabulary.typeOfText text = .error fault := by
    rw [token] at h
    cases htype : vocabulary.typeOfText text with
    | ok type => simp only [htype] at h; cases h
    | error cause => simp only [htype] at h; cases h; rfl
  rw [typeOfText] at htype
  split at htype
  · split at htype
    · exact hsymbol _ htype
    · cases htype
      exact ⟨_, rfl⟩
  · cases htype

namespace Forest

variable {vocabulary : Vocabulary}

theorem attachAll_eq_ok_iff {parent : NodeId} {parts : List Part} :
    ∀ {forest : Forest}, (forest.attachAll vocabulary parent parts).2 = .ok () ↔
      ∀ part ∈ parts, part.Attachable vocabulary := by
  induction parts with
  | nil => intro forest; exact iff_of_true rfl (List.forall_mem_nil _)
  | cons part rest ih =>
      intro forest
      rw [List.forall_mem_cons, attachAll]
      cases part with
      | text text =>
          rw [attach]
          cases htoken : vocabulary.token text none with
          | ok token => exact ih.trans (and_iff_right (.text htoken)).symm
          | error fault =>
              refine iff_of_false (by intro h; cases h) ?_
              rintro ⟨h, -⟩
              cases h with
              | text h => rw [htoken] at h; cases h
      | node child =>
          cases child with
          | some child => exact ih.trans (and_iff_right (.node child)).symm
          | none =>
              refine iff_of_false (by intro h; cases h) ?_
              rintro ⟨h, -⟩
              cases h

theorem growLabelled_eq_ok_iff {forest : Forest} {label : RuleLabel} {parts : List Part}
    {n : NodeId} :
    (forest.growLabelled vocabulary label parts).2 = .ok n ↔
      n = forest.size ∧ ∀ part ∈ parts, part.Attachable vocabulary := by
  have hall : ((forest.add (.rule label) none).1.attachAll vocabulary forest.size parts).2 =
      .ok () ↔ ∀ part ∈ parts, part.Attachable vocabulary := attachAll_eq_ok_iff
  rw [← hall]
  simp only [growLabelled, add_snd]
  rcases (forest.add (.rule label) none).1.attachAll vocabulary forest.size parts with
    ⟨after, fault | done⟩
  · simp
  · simp [eq_comm]

theorem attachAll_append {parent : NodeId} {front rest : List Part}
    (hfront : ∀ part ∈ front, part.Attachable vocabulary) :
    ∀ forest : Forest, forest.attachAll vocabulary parent (front ++ rest) =
      (forest.attachAll vocabulary parent front).1.attachAll vocabulary parent rest := by
  induction front with
  | nil => exact fun _ => rfl
  | cons part front ih =>
      intro forest
      obtain ⟨hpart, hothers⟩ := List.forall_mem_cons.mp hfront
      cases hpart with
      | text htoken =>
          simp only [List.cons_append, attachAll, attach, htoken]
          exact ih hothers _
      | node n => exact ih hothers _

theorem attachAll_refused {parent : NodeId} {part : Part} {fault : Fault}
    (h : part.Refused vocabulary fault) (forest : Forest) (rest : List Part) :
    forest.attachAll vocabulary parent (part :: rest) = (forest, .error fault) := by
  cases h with
  | text htoken => simp only [attachAll, attach, htoken]
  | absent => rfl

/-- A call that fails at a part leaves behind what it does with the parts in front. -/
theorem growLabelled_refused {label : RuleLabel} {front : List Part} {part : Part} {fault : Fault}
    (hfront : ∀ part ∈ front, part.Attachable vocabulary) (hpart : part.Refused vocabulary fault)
    (forest : Forest) (rest : List Part) :
    forest.growLabelled vocabulary label (front ++ part :: rest) =
      ((forest.growLabelled vocabulary label front).1, .error fault) := by
  rw [growLabelled_fst]
  simp only [growLabelled, add_snd, attachAll_append hfront, attachAll_refused hpart]

/-! ## What is left behind -/

/-- The later forest has the nodes of the earlier one, with the labels and children that they
had there. -/
structure Extends (before after : Forest) : Prop where
  size_le : before.size ≤ after.size
  label?_eq : ∀ n < before.size, after.label? n = before.label? n
  children_eq : ∀ n < before.size, after.children n = before.children n

theorem Extends.refl (forest : Forest) : Extends forest forest :=
  ⟨Nat.le_refl _, fun _ _ => rfl, fun _ _ => rfl⟩

theorem Extends.trans {first second third : Forest} (h : Extends first second)
    (h' : Extends second third) : Extends first third where
  size_le := Nat.le_trans h.size_le h'.size_le
  label?_eq n hn := by
    rw [h'.label?_eq n (Nat.lt_of_lt_of_le hn h.size_le), h.label?_eq n hn]
  children_eq n hn := by
    rw [h'.children_eq n (Nat.lt_of_lt_of_le hn h.size_le), h.children_eq n hn]

section Extends

variable {before after : Forest} {n : NodeId}

theorem Extends.kind_eq (h : Extends before after) (hn : n < before.size) :
    after.kind n = before.kind n := by
  rw [kind, kind, h.label?_eq n hn]

theorem Extends.token?_eq (h : Extends before after) (hn : n < before.size) :
    after.token? n = before.token? n := by
  rw [token?, token?, h.label?_eq n hn]

theorem Extends.isRule (h : Extends before after) (hrule : before.isRule n = true) :
    after.isRule n = true := by
  rwa [isRule_congr (h.label?_eq n (lt_size_of_isRule hrule))]

end Extends

/-- What a part is attached as. A text is a terminal with a number from the bound on. -/
inductive AttachedAs (forest : Forest) (vocabulary : Vocabulary) (bound : NodeId) :
    Part → NodeId → Prop where
  | text {text : String} {token : Token} {n : NodeId}
      (htoken : vocabulary.token text none = .ok token)
      (hlabel : forest.label? n = some (.token token false)) (hbound : bound ≤ n) :
      AttachedAs forest vocabulary bound (.text text) n
  | node (n : NodeId) : AttachedAs forest vocabulary bound (.node (some n)) n

theorem AttachedAs.mono {before after : Forest} (hextends : Extends before after)
    {bound bound' n : NodeId} (hbound : bound' ≤ bound) {part : Part}
    (h : before.AttachedAs vocabulary bound part n) :
    after.AttachedAs vocabulary bound' part n := by
  cases h with
  | text htoken hlabel hle =>
      exact .text htoken ((hextends.label?_eq n (lt_size_of_label? hlabel)).trans hlabel)
        (Nat.le_trans hbound hle)
  | node _ => exact .node n

theorem attachAll_attachedAs {parent bound : NodeId} {parts : List Part} :
    ∀ {forest : Forest}, parent < forest.size → bound ≤ forest.size →
      (∀ n, .node (some n) ∈ parts → n < forest.size) →
      (∀ part ∈ parts, part.Attachable vocabulary) →
      List.Forall₂ ((forest.attachAll vocabulary parent parts).1.AttachedAs vocabulary bound) parts
        (vocabulary.attachedNodes forest.size parts) := by
  induction parts with
  | nil => intros; exact .nil
  | cons part rest ih =>
      intro forest hparent hbound hparts hattachable
      obtain ⟨hfirst, hrest⟩ := List.forall_mem_cons.mp hattachable
      have hlt : ∀ n, .node (some n) ∈ rest → n < forest.size :=
        fun n hn => hparts n (List.mem_cons_of_mem _ hn)
      cases hfirst with
      | @text text token htoken =>
          have hsize : (forest.addTerminal parent token).1.size = forest.size + 1 :=
            size_addTerminal ..
          have hself : forest.size < (forest.addTerminal parent token).1.size := by
            rw [hsize]
            exact Nat.lt_succ_self _
          have hparent' := Nat.lt_trans hparent hself
          have hlt' : ∀ n, .node (some n) ∈ rest → n < (forest.addTerminal parent token).1.size :=
            fun n hn => Nat.lt_trans (hlt n hn) hself
          have hnext := ih hparent' (Nat.le_trans hbound (Nat.le_of_lt hself)) hlt' hrest
          rw [hsize] at hnext
          -- The new terminal keeps its label while the rest is attached.
          have hbelow : AttachedBelow _ ((forest.addTerminal parent token).1.attachAll vocabulary
              parent rest).1 _ _ := attachAll_attachedBelow hparent' hlt'
          have hlabel := hbelow.label?_eq forest.size hself
          rw [label?_addTerminal, if_pos rfl] at hlabel
          simp only [attachAll, attach, Vocabulary.attachedNodes, htoken]
          exact .cons (.text htoken hlabel hbound) hnext
      | node child =>
          have hsize : (forest.adopt parent child).size = forest.size := size_adopt ..
          rw [← hsize] at hparent hbound hlt
          have hnext := ih hparent hbound hlt hrest
          rw [hsize] at hnext
          exact .cons (.node child) hnext

theorem growLabelled_extends {forest : Forest} {label : RuleLabel} {parts : List Part}
    (h : ∀ n, .node (some n) ∈ parts → n < forest.size) :
    Extends forest (forest.growLabelled vocabulary label parts).1 := by
  have hbelow : AttachedBelow _ (forest.growLabelled vocabulary label parts).1 _ _ :=
    growLabelled_attachedBelow h
  have hle : forest.size ≤ (forest.add (.rule label) none).1.size := by
    rw [size_add]
    exact Nat.le_succ _
  refine ⟨Nat.le_trans hle hbelow.size_le, ?_, ?_⟩
  · intro n hn
    rw [hbelow.label?_eq n (Nat.lt_of_lt_of_le hn hle), label?_add, if_neg (Nat.ne_of_lt hn)]
  · intro n hn
    rw [hbelow.children_eq, if_neg (Nat.ne_of_gt hn), children_add]

/-- What making a node of parts that can be attached leaves behind. -/
structure Grown (before after : Forest) (vocabulary : Vocabulary) (label : RuleLabel)
    (parts : List Part) : Prop where
  extended : Extends before after
  label?_eq : after.label? before.size = some (.rule label)
  attached : List.Forall₂ (after.AttachedAs vocabulary (before.size + 1)) parts
    (after.children before.size)
  children_eq_nil : ∀ n, before.size < n → after.children n = []
  parent?_eq : ∀ n, after.parent? n =
    if n ∈ after.children before.size then some before.size else before.parent? n

theorem growLabelled_grown {forest : Forest} (label : RuleLabel) {parts : List Part}
    (hlt : ∀ n, .node (some n) ∈ parts → n < forest.size)
    (hattachable : ∀ part ∈ parts, part.Attachable vocabulary) :
    ∃ after, forest.growLabelled vocabulary label parts = (after, .ok forest.size) ∧
      Grown forest after vocabulary label parts := by
  have hok : (forest.growLabelled vocabulary label parts).2 = .ok forest.size :=
    growLabelled_eq_ok_iff.mpr ⟨rfl, hattachable⟩
  have hsize : (forest.add (.rule label) none).1.size = forest.size + 1 := size_add ..
  have hself : forest.size < (forest.add (.rule label) none).1.size := by
    rw [hsize]
    exact Nat.lt_succ_self _
  -- The terminals are numbered behind the node itself, where the forest had nothing.
  have hattached : List.Forall₂ (AttachedAs _ vocabulary (forest.size + 1)) parts _ :=
    attachAll_attachedAs hself (Nat.le_of_eq hsize.symm)
      (fun n hn => Nat.lt_trans (hlt n hn) hself) hattachable
  rw [hsize, ← growLabelled_fst] at hattached
  have hbelow : AttachedBelow _ (forest.growLabelled vocabulary label parts).1 _ _ :=
    growLabelled_attachedBelow hlt
  have hchildren := hbelow.children_eq forest.size
  rw [if_pos rfl, children_add, children_eq_nil forest (Nat.le_refl _),
    List.nil_append] at hchildren
  refine ⟨_, Prod.ext rfl hok, growLabelled_extends hlt, ?_, ?_, ?_, ?_⟩
  · rw [hbelow.label?_eq _ hself, label?_add, if_pos rfl]
  · rw [hchildren]
    exact hattached
  · intro n hn
    rw [hbelow.children_eq, if_neg (Nat.ne_of_lt hn), children_add,
      children_eq_nil forest (Nat.le_of_lt hn)]
  · intro n
    rw [hbelow.parent?_eq, hchildren, parent?_add]
    split
    · rfl
    · split
      · next heq => rw [parent?_eq_none forest (Nat.le_of_eq heq.symm)]
      · rfl

section Grown

variable {before after : Forest} {label : RuleLabel} {parts : List Part}
  (h : Grown before after vocabulary label parts)

include h

theorem Grown.lt_size : before.size < after.size := lt_size_of_label? h.label?_eq

theorem Grown.kind_size : after.kind before.size = label.kind := by
  rw [kind, h.label?_eq]
  rfl

theorem Grown.mem_children_iff {n : NodeId} (hn : n < before.size) :
    n ∈ after.children before.size ↔ .node (some n) ∈ parts := by
  constructor
  · intro hmem
    obtain ⟨part, hpart, hattached⟩ := exists_of_mem_right h.attached n hmem
    cases hattached with
    | text _ _ hbound => exact absurd hbound (Nat.not_le.mpr (Nat.lt_succ_of_lt hn))
    | node _ => exact hpart
  · intro hpart
    obtain ⟨c, hc, hattached⟩ := exists_of_mem_right h.attached.flip _ hpart
    cases hattached
    exact hc

theorem Grown.parent?_of_part {n : NodeId} (hn : n < before.size) (hpart : .node (some n) ∈ parts) :
    after.parent? n = some before.size := by
  rw [h.parent?_eq, if_pos ((h.mem_children_iff hn).mpr hpart)]

theorem Grown.parent?_of_free {n : NodeId} (hn : n < before.size)
    (hfree : .node (some n) ∉ parts) : after.parent? n = before.parent? n := by
  rw [h.parent?_eq, if_neg fun hmem => hfree ((h.mem_children_iff hn).mp hmem)]

variable (hlt : ∀ n, .node (some n) ∈ parts → n < before.size)

include hlt

theorem Grown.size_not_mem_children : before.size ∉ after.children before.size := by
  intro hmem
  obtain ⟨part, hpart, hattached⟩ := exists_of_mem_right h.attached _ hmem
  cases hattached with
  | text _ _ hbound => exact Nat.lt_irrefl _ hbound
  | node _ => exact Nat.lt_irrefl _ (hlt _ hpart)

/-- A node that was just made is a root. -/
theorem Grown.parent?_size : after.parent? before.size = none := by
  rw [h.parent?_eq, if_neg (h.size_not_mem_children hlt), before.parent?_eq_none (Nat.le_refl _)]

end Grown

/-- All that a call can do: it refuses the kind, it stops at a part, or it makes the node. -/
theorem grow_cases (forest : Forest) (kind : Kind) {parts : List Part}
    (hlt : ∀ n, .node (some n) ∈ parts → n < forest.size) :
    (kind.isRule = false ∧
      forest.grow vocabulary kind parts = (forest, .error (.notARule kind))) ∨
    (kind.isRule = true ∧ ∃ front part rest fault after, parts = front ++ part :: rest ∧
      (∀ part ∈ front, part.Attachable vocabulary) ∧ part.Refused vocabulary fault ∧
      forest.grow vocabulary kind parts = (after, .error fault) ∧
      Grown forest after vocabulary (.ofKind kind) front) ∨
    (kind.isRule = true ∧ ∃ after, forest.grow vocabulary kind parts = (after, .ok forest.size) ∧
      Grown forest after vocabulary (.ofKind kind) parts) := by
  by_cases hkind : kind.isRule = true
  · refine .inr ?_
    rw [grow, if_pos hkind]
    rcases Part.exists_first_refused vocabulary parts with
      hall | ⟨front, part, rest, fault, rfl, hfront, hpart⟩
    · exact .inr ⟨hkind, growLabelled_grown (.ofKind kind) hlt hall⟩
    · obtain ⟨after, hgrow, hgrown⟩ := growLabelled_grown (.ofKind kind)
        (fun n hn => hlt n (List.mem_append_left _ hn)) hfront
      refine .inl ⟨hkind, front, part, rest, fault, after, rfl, hfront, hpart, ?_, hgrown⟩
      rw [growLabelled_refused hfront hpart, hgrow]
  · rw [grow, if_neg hkind]
    exact .inl ⟨Bool.eq_false_iff.mpr hkind, rfl⟩

theorem Grown.of_grow {forest after : Forest} {kind : Kind} {parts : List Part} {p : NodeId}
    (hlt : ∀ n, .node (some n) ∈ parts → n < forest.size)
    (hgrow : forest.grow vocabulary kind parts = (after, .ok p)) :
    p = forest.size ∧ Grown forest after vocabulary (.ofKind kind) parts := by
  rcases grow_cases forest kind hlt with ⟨-, heq⟩ |
      ⟨-, _, _, _, _, _, -, -, -, heq, -⟩ | ⟨-, _, heq, hgrown⟩
  · cases hgrow.symm.trans heq
  · cases hgrow.symm.trans heq
  · cases hgrow.symm.trans heq
    exact ⟨rfl, hgrown⟩

/-! ## Texts and documents -/

/-- What is read off the tokens below a node and put together at each rule node, if no walk down
is longer than the given depth. -/
def foldWithin {α : Type} (forest : Forest) (leaf : Token → Bool → α)
    (join : RuleLabel → List α → α) : Nat → NodeId → Except Fault α
  | 0, _ => .error .endless
  | depth + 1, n =>
    match forest.label? n with
    | some (.token token erroneous) => .ok (leaf token erroneous)
    | some (.rule label) => do
      return join label (← (forest.children n).mapM (forest.foldWithin leaf join depth))
    | _ => .error .notOffered

theorem textWithin_eq_foldWithin (forest : Forest) (depth : Nat) :
    forest.textWithin depth =
      forest.foldWithin (fun token _ => token.text) (fun _ => String.join) depth := by
  induction depth with
  | zero => rfl
  | succ depth ih =>
      funext n
      rcases hlabel : forest.label? n with _ | label
      · simp only [textWithin, foldWithin, hlabel]
      · cases label <;> simp only [textWithin, foldWithin, hlabel, ih]

theorem documentWithin_eq_foldWithin (forest : Forest) (w : Vocabulary) (depth : Nat) :
    forest.documentWithin w depth =
      forest.foldWithin (fun token => .token (w.tokenName token.type) token.text)
        (fun label => .rule label.ruleName) depth := by
  induction depth with
  | zero => rfl
  | succ depth ih =>
      funext n
      rcases hlabel : forest.label? n with _ | label
      · simp only [documentWithin, foldWithin, hlabel]
      · cases label <;> simp only [documentWithin, foldWithin, hlabel, ih]

/-- What is found in a forest is found in all that the forest is extended to, and within every
larger bound. -/
theorem Extends.foldWithin_mono {before after : Forest} (h : Extends before after) {α : Type}
    {leaf : Token → Bool → α} {join : RuleLabel → List α → α} {depth : Nat} :
    ∀ {bound : Nat} {n : NodeId} {a : α}, depth ≤ bound →
      before.foldWithin leaf join depth n = .ok a → after.foldWithin leaf join bound n = .ok a := by
  induction depth with
  | zero => intro bound n a _ hbefore; cases hbefore
  | succ depth ih =>
      intro bound n a hle hbefore
      obtain ⟨bound, rfl⟩ : ∃ b, bound = b + 1 := ⟨bound - 1, by omega⟩
      cases hlabel : before.label? n with
      | none => rw [foldWithin, hlabel] at hbefore; cases hbefore
      | some label =>
          have hn := lt_size_of_label? hlabel
          rw [foldWithin, hlabel] at hbefore
          rw [foldWithin, h.label?_eq n hn, hlabel, h.children_eq n hn]
          cases label with
          | gap => cases hbefore
          | token token erroneous => exact hbefore
          | rule label =>
              cases hall : (before.children n).mapM (before.foldWithin leaf join depth) with
              | error fault => simp only [hall] at hbefore; cases hbefore
              | ok all =>
                  -- The children are there too, and have a step less on both sides.
                  have hafter : (before.children n).mapM (after.foldWithin leaf join bound) =
                      .ok all :=
                    mapM_eq_ok_iff.mpr ((mapM_eq_ok_iff.mp hall).imp
                      fun c _ => ih (Nat.le_of_succ_le_succ hle))
                  simp only [hall] at hbefore
                  simp only [hafter]
                  exact hbefore

theorem Extends.text_eq {before after : Forest} (h : Extends before after) {n : NodeId}
    (hbefore : ∃ text, before.text n = .ok text) : after.text n = before.text n := by
  obtain ⟨text, htext⟩ := hbefore
  rw [htext]
  rw [Forest.text, textWithin_eq_foldWithin] at htext ⊢
  exact h.foldWithin_mono h.size_le htext

theorem Extends.document_eq {before after : Forest} (h : Extends before after) {w : Vocabulary}
    {n : NodeId} (hbefore : ∃ document, before.document w n = .ok document) :
    after.document w n = before.document w n := by
  obtain ⟨document, hdocument⟩ := hbefore
  rw [hdocument]
  rw [Forest.document, documentWithin_eq_foldWithin] at hdocument ⊢
  exact h.foldWithin_mono h.size_le hdocument

/-! ## Links -/

/-- Of the nodes that were there, exactly those among the parts have another parent link than
before, and it leads to the given parent. -/
structure Relinked (before after : Forest) (parts : List Part) (parent : NodeId) : Prop where
  moved : ∀ n, .node (some n) ∈ parts →
    after.parent? n = some parent ∧ before.parent? n ≠ some parent
  kept : ∀ n < before.size, .node (some n) ∉ parts → after.parent? n = before.parent? n

section Linked

variable {before after : Forest} {label : RuleLabel} {parts : List Part} (hbefore : before.Linked)
  (hlt : ∀ n, .node (some n) ∈ parts → n < before.size)
  (h : Grown before after vocabulary label parts)

include hbefore hlt h

theorem Grown.relinked : Relinked before after parts before.size where
  moved n hpart := by
    refine ⟨h.parent?_of_part (hlt n hpart) hpart, fun hparent => ?_⟩
    exact Nat.lt_irrefl _ (lt_size_of_isRule (hbefore.isRule (hbefore.mem_children hparent)))
  kept n hn hfree := h.parent?_of_free hn hfree

/-- A node that was just made is below nothing. -/
theorem Grown.not_mem_children (p : NodeId) : before.size ∉ after.children p := by
  rcases Nat.lt_trichotomy p before.size with hp | rfl | hp
  · rw [h.extended.children_eq p hp]
    exact fun hmem => Nat.lt_irrefl _ (hbefore.child_lt_size hmem)
  · exact h.size_not_mem_children hlt
  · rw [h.children_eq_nil p hp]
    exact List.not_mem_nil

end Linked

end Forest

/-- What making a node changes, in every forest that calls of the builder lead to. Whatever the
outcome is, the nodes that are there keep their children, kinds, tokens, texts and documents.
If the kind is no rule, they keep their parent links too. If a text has no type, the links of
the nodes in front of it are changed, and no others; they lead to a new node that is below
nothing and is not answered. Else the links of all given nodes are changed, and no others; they
lead to the answered node, which is new and has the parts for its children, in order. -/
theorem Run.grow_frame {forest : Forest} {history : List (NodeId × NodeId)}
    (h : Run forest history) (vocabulary : Vocabulary) (kind : Kind) {parts : List Part}
    (hparts : ∀ part ∈ parts, part.Given forest) :
    ∃ after outcome, forest.grow vocabulary kind parts = (after, outcome) ∧
      (∀ n < forest.size, after.children n = forest.children n ∧ after.kind n = forest.kind n ∧
        after.token? n = forest.token? n ∧ after.text n = forest.text n ∧
        ∀ w, after.document w n = forest.document w n) ∧
      (outcome = .error (.notARule kind) ∧ kind.isRule = false ∧
          (∀ n, after.parent? n = forest.parent? n) ∨
        (∃ cause front text rest new, outcome = .error (.vocabulary cause) ∧
          parts = front ++ .text text :: rest ∧
          (∀ part ∈ front, part.Attachable vocabulary) ∧
          vocabulary.token text none = .error (.vocabulary cause) ∧
          forest.size ≤ new ∧ new < after.size ∧ (∀ p, new ∉ after.children p) ∧
          forest.Relinked after front new) ∨
        ∃ p, outcome = .ok p ∧ forest.size ≤ p ∧ after.kind p = kind ∧
          List.Forall₂ (after.AttachedAs vocabulary forest.size) parts (after.children p) ∧
          (∀ c ∈ after.children p, after.parent? c = some p) ∧
          forest.Relinked after parts p) := by
  have hlinked := h.linked
  have hlt : ∀ n, .node (some n) ∈ parts → n < forest.size := fun n hn => (hparts _ hn).lt_size
  have hframe : ∀ {after : Forest}, forest.Extends after → ∀ n < forest.size,
      after.children n = forest.children n ∧ after.kind n = forest.kind n ∧
        after.token? n = forest.token? n ∧ after.text n = forest.text n ∧
        ∀ w, after.document w n = forest.document w n := by
    intro after hextends n hn
    have hbounded := hlinked.bounded hn
    exact ⟨hextends.children_eq n hn, hextends.kind_eq hn, hextends.token?_eq hn,
      hextends.text_eq (hlinked.textWithin_ok hbounded),
      fun w => hextends.document_eq (hlinked.documentWithin_ok w hbounded)⟩
  rcases Forest.grow_cases forest kind hlt with ⟨hkind, hgrow⟩ |
      ⟨-, front, part, rest, fault, after, rfl, hfront, hpart, hgrow, hgrown⟩ |
      ⟨-, after, hgrow, hgrown⟩
  · exact ⟨forest, _, hgrow, hframe (.refl forest), .inl ⟨rfl, hkind, fun _ => rfl⟩⟩
  · have hlt' : ∀ n, .node (some n) ∈ front → n < forest.size :=
      fun n hn => hlt n (List.mem_append_left _ hn)
    cases hpart with
    | absent => cases hparts _ (List.mem_append_right _ List.mem_cons_self)
    | @text text fault htoken =>
        obtain ⟨cause, rfl⟩ := Vocabulary.exists_fault_of_token htoken
        exact ⟨after, _, hgrow, hframe hgrown.extended, .inr (.inl ⟨cause, front, text, rest,
          forest.size, rfl, rfl, hfront, htoken, Nat.le_refl _, hgrown.lt_size,
          hgrown.not_mem_children hlinked hlt', hgrown.relinked hlinked hlt'⟩)⟩
  · refine ⟨after, _, hgrow, hframe hgrown.extended, .inr (.inr ⟨forest.size, rfl, Nat.le_refl _,
      hgrown.kind_size, ?_, ?_, hgrown.relinked hlinked hlt⟩)⟩
    · exact hgrown.attached.imp fun _ _ =>
        Forest.AttachedAs.mono (.refl after) (Nat.le_succ _)
    · intro c hc
      rw [hgrown.parent?_eq, if_pos hc]

/-- A statement holds a block twice. Making an expression of the block, a text without a type
and the statement takes the block, and leaves the statement as it is. -/
theorem Run.grow_frame_halfway :
    let vocabulary := Vocabulary.ofNames [] []
    let forest : Forest := ⟨#[
      { label := .rule (.ofKind .block), parent := some 1 },
      { label := .rule (.ofKind .statement), children := [0, 0] }]⟩
    let parts := [Part.node (some 0), .text "?", .node (some 1)]
    Run forest [(0, 1), (0, 1)] ∧ (∀ part ∈ parts, part.Given forest) ∧
      ∃ after new, forest.grow vocabulary .expression parts =
          (after, .error (.vocabulary (.noTokenType "?"))) ∧
        2 ≤ new ∧ (∀ p, new ∉ after.children p) ∧ after.parent? 0 = some new ∧
        after.parent? 1 = none ∧ after.children 1 = [0, 0] ∧ after.text 1 = forest.text 1 := by
  intro vocabulary forest parts
  have htoken : vocabulary.token "?" none = .error (.vocabulary (.noTokenType "?")) := by
    rw [Vocabulary.token, Vocabulary.typeOfText, Vocabulary.tokenType_eq_find?]
    rfl
  have hblock : Run ⟨#[{ label := .rule (.ofKind .block) }]⟩ [] :=
    Run.start.call (.node vocabulary .block []) (by simp [Call.Admissible])
  have hrun : Run forest [(0, 1), (0, 1)] :=
    hblock.call (.node vocabulary .statement [.node (some 0), .node (some 0)])
      (by simp [Call.Admissible, Forest.size])
  have hparts : ∀ part ∈ parts, part.Given forest := by
    simp only [parts, List.forall_mem_cons]
    exact ⟨.node (by decide), .text _, .node (by decide), List.forall_mem_nil _⟩
  have hrefused : ¬ (Part.text "?").Attachable vocabulary := by
    rintro ⟨hok⟩
    rw [htoken] at hok
    cases hok
  obtain ⟨after, outcome, hgrow, hframe, hcases⟩ :=
    Run.grow_frame hrun vocabulary .expression hparts
  obtain ⟨hchildren, -, -, htext, -⟩ := hframe 1 (by decide)
  refine ⟨hrun, hparts, after, ?_⟩
  rcases hcases with ⟨-, hkind, -⟩ |
      ⟨cause, front, text, rest, new, rfl, heq, hfront, hcause, hle, -, hbelow, hlinks⟩ |
      ⟨p, -, -, -, hattached, -⟩
  · cases hkind
  · -- The text is the second part, since only nodes come in front of the first without a type.
    obtain ⟨rfl, rfl⟩ : front = [.node (some 0)] ∧ text = "?" := by
      have hlist : [Part.node (some 0), .text "?", .node (some 1)] = front ++ .text text :: rest :=
        heq
      rcases front with _ | ⟨first, _ | ⟨second, front⟩⟩
      · cases hlist
      · cases hlist
        exact ⟨rfl, rfl⟩
      · injection hlist with _ hlist
        injection hlist with hsecond _
        exact absurd (hfront second (by simp)) (hsecond ▸ hrefused)
    cases htoken.symm.trans hcause
    exact ⟨new, hgrow, hle, hbelow, (hlinks.moved 0 List.mem_cons_self).1,
      hlinks.kept 1 (by decide) (by decide), hchildren, htext⟩
  · obtain ⟨c, -, hc⟩ := exists_of_mem_right hattached.flip (.text "?") (by decide)
    cases hc with
    | text hok _ _ => exact absurd (.text hok) hrefused

end SolidityLint
