import SolidityLint.Forest.Builder

/-!
# What the operations do to a forest

A forest is viewed through `node?`. Each operation is described by what the view
shows afterwards: adding a node shows one more, and the changes of links show the
changed node and leave the others and the labels alone.
-/

namespace SolidityLint.Forest

variable (forest : Forest)

/-! ## Adding and changing -/

@[simp]
theorem size_add (label : Label) (parent : Option NodeId) :
    (forest.add label parent).1.size = forest.size + 1 := by
  simp [add, size]

@[simp]
theorem add_snd (label : Label) (parent : Option NodeId) :
    (forest.add label parent).2 = forest.size := rfl

theorem node?_add (label : Label) (parent : Option NodeId) (n : NodeId) :
    (forest.add label parent).1.node? n =
      if n = forest.size then some { label, parent } else forest.node? n :=
  Array.getElem?_push

@[simp]
theorem size_modify (m : NodeId) (change : Node → Node) :
    (forest.modify m change).size = forest.size := by
  simp [modify, size]

theorem node?_modify (m n : NodeId) (change : Node → Node) :
    (forest.modify m change).node? n =
      if m = n then (forest.node? n).map change else forest.node? n := by
  simp only [modify, node?, Array.getElem?_modify]

theorem node?_eq_none_iff {n : NodeId} : forest.node? n = none ↔ forest.size ≤ n := by
  simp [node?, size]

theorem label?_add (label : Label) (parent : Option NodeId) (n : NodeId) :
    (forest.add label parent).1.label? n =
      if n = forest.size then some label else forest.label? n := by
  rw [label?, node?_add]
  split <;> rfl

theorem children_eq_nil {n : NodeId} (h : forest.size ≤ n) : forest.children n = [] := by
  rw [children, (node?_eq_none_iff forest).2 h]
  rfl

theorem parent?_eq_none {n : NodeId} (h : forest.size ≤ n) : forest.parent? n = none := by
  rw [parent?, (node?_eq_none_iff forest).2 h]
  rfl

theorem label?_eq_none_iff {n : NodeId} : forest.label? n = none ↔ forest.size ≤ n := by
  rw [label?, Option.map_eq_none_iff, node?_eq_none_iff]

@[simp]
theorem children_add (label : Label) (parent : Option NodeId) (n : NodeId) :
    (forest.add label parent).1.children n = forest.children n := by
  rw [children, node?_add]
  split
  next same => rw [children_eq_nil forest (Nat.le_of_eq same.symm)]; rfl
  next => rfl

theorem parent?_add (label : Label) (parent : Option NodeId) (n : NodeId) :
    (forest.add label parent).1.parent? n =
      if n = forest.size then parent else forest.parent? n := by
  rw [parent?, node?_add]
  split <;> rfl

/-! ## Links -/

@[simp]
theorem size_appendChild (parent child : NodeId) :
    (forest.appendChild parent child).size = forest.size := size_modify ..

@[simp]
theorem size_setParent (n parent : NodeId) : (forest.setParent n parent).size = forest.size :=
  size_modify ..

@[simp]
theorem label?_appendChild (parent child n : NodeId) :
    (forest.appendChild parent child).label? n = forest.label? n := by
  simp only [label?, appendChild, node?_modify]
  split
  · cases forest.node? n <;> rfl
  · rfl

@[simp]
theorem label?_setParent (m parent n : NodeId) :
    (forest.setParent m parent).label? n = forest.label? n := by
  simp only [label?, setParent, node?_modify]
  split
  · cases forest.node? n <;> rfl
  · rfl

@[simp]
theorem parent?_appendChild (parent child n : NodeId) :
    (forest.appendChild parent child).parent? n = forest.parent? n := by
  simp only [parent?, appendChild, node?_modify]
  split
  · cases forest.node? n <;> rfl
  · rfl

@[simp]
theorem children_setParent (m parent n : NodeId) :
    (forest.setParent m parent).children n = forest.children n := by
  simp only [children, setParent, node?_modify]
  split
  · cases forest.node? n <;> rfl
  · rfl

theorem children_appendChild {parent : NodeId} (child n : NodeId) (h : parent < forest.size) :
    (forest.appendChild parent child).children n =
      if parent = n then forest.children n ++ [child] else forest.children n := by
  simp only [children, appendChild, node?_modify]
  split
  next same =>
    subst same
    cases hn : forest.node? parent with
    | none => exact absurd ((node?_eq_none_iff forest).1 hn) (Nat.not_le.2 h)
    | some node => rfl
  next => rfl

theorem parent?_setParent {m : NodeId} (parent n : NodeId) (h : m < forest.size) :
    (forest.setParent m parent).parent? n = if m = n then some parent else forest.parent? n := by
  simp only [parent?, setParent, node?_modify]
  split
  next same =>
    subst same
    cases hn : forest.node? m with
    | none => exact absurd ((node?_eq_none_iff forest).1 hn) (Nat.not_le.2 h)
    | some node => rfl
  next => rfl

/-! ## Attaching -/

@[simp]
theorem size_adopt (parent child : NodeId) : (forest.adopt parent child).size = forest.size := by
  simp [adopt]

@[simp]
theorem size_addTerminal (parent : NodeId) (token : Token) :
    (forest.addTerminal parent token).1.size = forest.size + 1 := by
  simp [addTerminal]

@[simp]
theorem addTerminal_snd (parent : NodeId) (token : Token) :
    (forest.addTerminal parent token).2 = forest.size := rfl

@[simp]
theorem label?_adopt (parent child n : NodeId) :
    (forest.adopt parent child).label? n = forest.label? n := by
  simp [adopt]

theorem children_adopt {parent : NodeId} (child n : NodeId) (h : parent < forest.size) :
    (forest.adopt parent child).children n =
      if parent = n then forest.children n ++ [child] else forest.children n := by
  rw [adopt, children_appendChild _ _ _ (by simpa using h)]
  simp

theorem parent?_adopt {child : NodeId} (parent n : NodeId) (h : child < forest.size) :
    (forest.adopt parent child).parent? n =
      if child = n then some parent else forest.parent? n := by
  rw [adopt, parent?_appendChild, parent?_setParent _ _ _ h]

theorem label?_addTerminal (parent : NodeId) (token : Token) (n : NodeId) :
    (forest.addTerminal parent token).1.label? n =
      if n = forest.size then some (.token token false) else forest.label? n := by
  simp only [addTerminal, label?_appendChild]
  exact label?_add ..

theorem children_addTerminal {parent : NodeId} (token : Token) (n : NodeId)
    (h : parent < forest.size) :
    (forest.addTerminal parent token).1.children n =
      if parent = n then forest.children n ++ [forest.size] else forest.children n := by
  have hlt : parent < (forest.add (.token token false) (some parent)).1.size := by
    rw [size_add]
    exact Nat.lt_succ_of_lt h
  simp only [addTerminal]
  rw [children_appendChild _ _ _ hlt, children_add]
  rfl

theorem parent?_addTerminal (parent : NodeId) (token : Token) (n : NodeId) :
    (forest.addTerminal parent token).1.parent? n =
      if n = forest.size then some parent else forest.parent? n := by
  simp only [addTerminal, parent?_appendChild]
  exact parent?_add ..

/-! ## Labels decide what a node is -/

variable {forest} {other : Forest}

theorem lt_size_of_label? {n : NodeId} {label : Label} (h : forest.label? n = some label) :
    n < forest.size := by
  refine Nat.lt_of_not_le fun hle => ?_
  rw [(label?_eq_none_iff forest).mpr hle] at h
  cases h

theorem isRule_congr {n : NodeId} (h : forest.label? n = other.label? n) :
    forest.isRule n = other.isRule n := by
  rw [isRule, isRule, ruleLabel?, ruleLabel?, h]

theorem isRule_iff {n : NodeId} :
    forest.isRule n = true ↔ ∃ label, forest.label? n = some (.rule label) := by
  rw [isRule, ruleLabel?]
  split
  next label h => simp [h]
  next h => exact iff_of_false (by simp) fun ⟨label, hlabel⟩ => h label hlabel

theorem isRule_eq_false {n : NodeId} (h : forest.isTerminal n = true) :
    forest.isRule n = false := by
  rw [isTerminal, token?] at h
  rw [isRule, ruleLabel?]
  split at h
  · next token erroneous hlabel =>
      rw [hlabel]
      rfl
  · cases h

theorem lt_size_of_isRule {n : NodeId} (h : forest.isRule n = true) : n < forest.size := by
  obtain ⟨label, hlabel⟩ := isRule_iff.mp h
  exact lt_size_of_label? hlabel

theorem eq_of_occupant? {n m : NodeId} (h : forest.occupant? n = some m) : n = m := by
  rw [occupant?] at h
  split at h
  · cases h
  · exact Option.some.inj h

end SolidityLint.Forest
