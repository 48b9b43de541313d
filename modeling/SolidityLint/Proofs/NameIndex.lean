import Mathlib.Order.Bounds.Defs
import SolidityLint.Vocabulary.Basic

/-!
# The index finds what the scan finds

A name is looked up in two ways. The index is filled once, from one table and
over that table's own length, and the first number to bring a name keeps it.
The scan tries one number after the other, up to the length of the longer
table, and reads each through the bounds check of `name?`.

Neither is described by the other here. Both are held against `FoundAt`, which
says where a name has to be found: at the least number from one on that has
it, or at zero if no number has it. That leaves one choice only, so the two
agree. Entries at number zero, repeated names, holes, and the numbers past the
end of the shorter table need no case of their own: `mem_named` and `FoundAt`
speak of `name?` alone.
-/

namespace SolidityLint

namespace NameTable

theorem name?_natCast (table : NameTable) (n : Nat) : table.name? n = table.toList[n]?.join := by
  show table[n]?.join = _
  rw [Array.getElem?_toList]

theorem lt_size_of_name? {table : NameTable} {name : String} {n : Nat}
    (h : table.name? n = some name) : n < table.size := by
  rw [name?_natCast, Option.join_eq_some_iff] at h
  exact (List.getElem?_eq_some_iff.mp h).1

/-- Where a name has to be found in a table. -/
def FoundAt (table : NameTable) (name : String) (id : Nat) : Prop :=
  (id = 0 ∧ ∀ k : Nat, 1 ≤ k → table.name? k ≠ some name) ∨
    IsLeast {k : Nat | 1 ≤ k ∧ table.name? k = some name} id

theorem FoundAt.unique {table : NameTable} {name : String} {i j : Nat}
    (hi : table.FoundAt name i) (hj : table.FoundAt name j) : i = j := by
  rcases hi with ⟨rfl, hnone⟩ | hi <;> rcases hj with ⟨rfl, hnone'⟩ | hj
  · rfl
  · exact absurd hj.1.2 (hnone j hj.1.1)
  · exact absurd hi.1.2 (hnone' i hi.1.1)
  · exact Nat.le_antisymm (hi.2 hj.1) (hj.2 hi.1)

theorem FoundAt.eq_zero_iff {table : NameTable} {name : String} {id : Nat}
    (h : table.FoundAt name id) :
    id = 0 ↔ ∀ k : Nat, 1 ≤ k → table.name? k ≠ some name := by
  rcases h with ⟨rfl, hnone⟩ | h
  · exact iff_of_true rfl hnone
  · have hpos : 1 ≤ id := h.1.1
    exact iff_of_false (by omega) fun hnone => hnone id hpos h.1.2

theorem FoundAt.isLeast {table : NameTable} {name : String} {id : Nat}
    (h : table.FoundAt name id) (hid : id ≠ 0) :
    IsLeast {k : Nat | 1 ≤ k ∧ table.name? k = some name} id :=
  h.resolve_left fun hzero => hid hzero.1

/-! ## The numbered names of a table

`named` lists what `name?` shows from number one on, in the order of the
numbers. -/

theorem mem_named {table : NameTable} {name : String} {id : Nat} :
    (name, id) ∈ table.named ↔ 1 ≤ id ∧ table.name? id = some name := by
  rw [name?_natCast, Option.join_eq_some_iff, named, List.mem_filterMap]
  constructor
  · rintro ⟨⟨entry, i⟩, hmem, hentry⟩
    rw [List.mk_mem_zipIdx_iff_le_and_getElem?_sub, List.getElem?_drop] at hmem
    obtain ⟨found, rfl, hpair⟩ := Option.map_eq_some_iff.mp hentry
    obtain ⟨rfl, rfl⟩ := Prod.mk.inj hpair
    rw [show 1 + (i - 1) = i by omega] at hmem
    exact hmem
  · rintro ⟨hid, hget⟩
    refine ⟨(some name, id), ?_, rfl⟩
    rw [List.mk_mem_zipIdx_iff_le_and_getElem?_sub, List.getElem?_drop,
      show 1 + (id - 1) = id by omega]
    exact ⟨hid, hget⟩

theorem pairwise_named (table : NameTable) :
    table.named.Pairwise fun a b => a.2 < b.2 := by
  have hidx : ((table.toList.drop 1).zipIdx 1).Pairwise fun a b => a.2 < b.2 := by
    rw [← List.pairwise_map (f := Prod.snd), List.zipIdx_map_snd]
    exact List.pairwise_lt_range'
  rw [named, List.pairwise_filterMap]
  refine hidx.imp fun {a b} hlt x hx y hy => ?_
  obtain ⟨_, _, rfl⟩ := Option.map_eq_some_iff.mp hx
  obtain ⟨_, _, rfl⟩ := Option.map_eq_some_iff.mp hy
  exact hlt

/-- The first of the numbered names that fits stands at the least number. -/
theorem foundAt_find? (table : NameTable) (name : String) :
    table.FoundAt name (((table.named.find? (·.1 == name)).map (·.2)).getD 0) := by
  cases hfind : table.named.find? (·.1 == name) with
  | none =>
      refine Or.inl ⟨rfl, fun k hk hname => ?_⟩
      have hno := List.find?_eq_none.mp hfind (name, k) (mem_named.mpr ⟨hk, hname⟩)
      exact hno (beq_self_eq_true name)
  | some entry =>
      obtain ⟨hentry, before, after, hsplit, hbefore⟩ :=
        List.find?_eq_some_iff_append.mp hfind
      obtain ⟨found, id⟩ := entry
      obtain rfl : found = name := by simpa using hentry
      refine Or.inr ⟨mem_named.mp (List.mem_of_find?_eq_some hfind), ?_⟩
      rintro k ⟨hk, hname⟩
      have hmem : (found, k) ∈ before ++ (found, id) :: after := by
        rw [← hsplit]
        exact mem_named.mpr ⟨hk, hname⟩
      have horder := table.pairwise_named
      rw [hsplit, List.pairwise_append, List.pairwise_cons] at horder
      rcases List.mem_append.mp hmem with hmem | hmem
      · exact absurd (hbefore _ hmem) (by simp)
      · rcases List.mem_cons.mp hmem with heq | hmem
        · exact Nat.le_of_eq (Prod.mk.inj heq).2.symm
        · exact Nat.le_of_lt (horder.2.1.1 _ hmem)

/-! ## The index -/

/-- What filling an index adds: names that it does not have yet, each with the
first number that comes with it. -/
theorem getElem?_foldl_insertIfNew (entries : List (String × Nat)) (name : String) :
    ∀ found : Std.HashMap String Nat,
      (entries.foldl (fun found entry => found.insertIfNew entry.1 entry.2) found)[name]? =
        found[name]?.or ((entries.find? (·.1 == name)).map (·.2)) := by
  induction entries with
  | nil => intro found; simp
  | cons entry rest ih =>
      intro found
      rw [List.foldl_cons, ih, Std.HashMap.getElem?_insertIfNew, List.find?_cons]
      by_cases heq : entry.1 = name
      · subst heq
        by_cases hmem : entry.1 ∈ found
        · simp [hmem]
        · simp [hmem]
      · simp only [beq_false_of_ne heq, Bool.false_eq_true, false_and, if_false]

theorem index_getD (table : NameTable) (name : String) :
    table.index.getD name 0 = ((table.named.find? (·.1 == name)).map (·.2)).getD 0 := by
  rw [Std.HashMap.getD_eq_getD_getElem?, index, getElem?_foldl_insertIfNew,
    Std.HashMap.getElem?_empty, Option.none_or]

end NameTable

namespace Vocabulary

theorem tokenType_eq_find? (vocabulary : Vocabulary) (literal : String) :
    vocabulary.tokenType literal =
      ((vocabulary.literals.named.find? (·.1 == literal)).map (·.2)).getD 0 := by
  rw [tokenType, vocabulary.literalIndex_eq]
  exact vocabulary.literals.index_getD literal

theorem symbolType_eq_find? (vocabulary : Vocabulary) (symbol : String) :
    vocabulary.symbolType symbol =
      ((vocabulary.symbols.named.find? (·.1 == symbol)).map (·.2)).getD 0 := by
  rw [symbolType, vocabulary.symbolIndex_eq]
  exact vocabulary.symbols.index_getD symbol

theorem foundAt_tokenType (vocabulary : Vocabulary) (literal : String) :
    vocabulary.literals.FoundAt literal (vocabulary.tokenType literal) := by
  rw [tokenType_eq_find?]
  exact vocabulary.literals.foundAt_find? literal

theorem foundAt_symbolType (vocabulary : Vocabulary) (symbol : String) :
    vocabulary.symbols.FoundAt symbol (vocabulary.symbolType symbol) := by
  rw [symbolType_eq_find?]
  exact vocabulary.symbols.foundAt_find? symbol

/-! ## The scan

It stops at the length of the longer table. No literal name stands past it. -/

theorem lt_size_of_literalName? {vocabulary : Vocabulary} {type : Nat} {name : String}
    (h : vocabulary.literalName? type = some name) : type < vocabulary.size :=
  Nat.lt_of_lt_of_le (NameTable.lt_size_of_name? h) (Nat.le_max_left _ _)

theorem foundAt_scanTokenType (vocabulary : Vocabulary) (literal : String) :
    vocabulary.literals.FoundAt literal (vocabulary.scanTokenType literal) := by
  rw [scanTokenType]
  cases hfind : (List.range' 1 (vocabulary.size - 1)).find? fun type : Nat =>
      vocabulary.literalName? type == some literal with
  | none =>
      refine Or.inl ⟨rfl, fun k hk hname => ?_⟩
      have hlt : k < vocabulary.size := lt_size_of_literalName? hname
      have hno := List.find?_range'_eq_none.mp hfind k hk (by omega)
      exact absurd hname (by simpa [literalName?] using hno)
  | some id =>
      obtain ⟨hid, hmem, hbefore⟩ := List.find?_range'_eq_some.mp hfind
      refine Or.inr ⟨⟨(List.mem_range'_1.mp hmem).1, by simpa [literalName?] using hid⟩, ?_⟩
      rintro k ⟨hk, hname⟩
      refine Nat.le_of_not_lt fun hlt => ?_
      have hno := hbefore k hk hlt
      exact absurd hname (by simpa [literalName?] using hno)

theorem mem_literalNames {vocabulary : Vocabulary} {literal : String} :
    literal ∈ vocabulary.literalNames ↔
      ∃ type : Nat, 1 ≤ type ∧ vocabulary.literalName? type = some literal := by
  rw [literalNames, List.mem_map]
  constructor
  · rintro ⟨⟨name, id⟩, hmem, rfl⟩
    exact ⟨id, NameTable.mem_named.mp hmem⟩
  · rintro ⟨id, h⟩
    exact ⟨(literal, id), NameTable.mem_named.mpr h, rfl⟩

theorem mem_literalNames_iff {vocabulary : Vocabulary} {literal : String} :
    literal ∈ vocabulary.literalNames ↔ vocabulary.tokenType literal ≠ invalidType := by
  rw [mem_literalNames, ne_eq, invalidType, (vocabulary.foundAt_tokenType literal).eq_zero_iff]
  simp [literalName?]

/-- A number has one literal name, so no two literals have the same type. -/
theorem tokenType_inj {vocabulary : Vocabulary} {literal other : String}
    (hliteral : vocabulary.tokenType literal ≠ invalidType)
    (h : vocabulary.tokenType literal = vocabulary.tokenType other) : literal = other := by
  have hname := ((vocabulary.foundAt_tokenType literal).isLeast hliteral).1.2
  have hname' := ((vocabulary.foundAt_tokenType other).isLeast (h ▸ hliteral)).1.2
  rw [h] at hname
  exact Option.some.inj (hname.symm.trans hname')

/-- The names are those of the two lists, and the index agrees with the scan, and both
with the names: the token type of a literal name is the least number from one on that has
the name, and zero exactly if no number has it. The same holds of symbols. -/
theorem tokenType_eq_scanTokenType (literals symbols : List (Option String)) (name : String) :
    let vocabulary := ofNames literals symbols
    (∀ type : Nat, vocabulary.literalName? type = (literals[type]?).join ∧
      vocabulary.symbolName? type = (symbols[type]?).join) ∧
    (∀ type : Int, type < 0 →
      vocabulary.literalName? type = none ∧ vocabulary.symbolName? type = none) ∧
    vocabulary.tokenType name = vocabulary.scanTokenType name ∧
      (vocabulary.tokenType name = invalidType ↔
        ∀ type : Nat, 1 ≤ type → vocabulary.literalName? type ≠ some name) ∧
      (vocabulary.tokenType name ≠ invalidType →
        IsLeast {type : Nat | 1 ≤ type ∧ vocabulary.literalName? type = some name}
          (vocabulary.tokenType name)) ∧
      (name ∈ vocabulary.literalNames ↔ vocabulary.tokenType name ≠ invalidType) ∧
      (vocabulary.symbolType name = invalidType ↔
        ∀ type : Nat, 1 ≤ type → vocabulary.symbolName? type ≠ some name) ∧
      (vocabulary.symbolType name ≠ invalidType →
        IsLeast {type : Nat | 1 ≤ type ∧ vocabulary.symbolName? type = some name}
          (vocabulary.symbolType name)) := by
  intro vocabulary
  have hliteral := vocabulary.foundAt_tokenType name
  have hsymbol := vocabulary.foundAt_symbolType name
  refine ⟨fun type => ⟨vocabulary.literals.name?_natCast type,
      vocabulary.symbols.name?_natCast type⟩, fun type hneg => ?_,
    hliteral.unique (vocabulary.foundAt_scanTokenType name), hliteral.eq_zero_iff,
    hliteral.isLeast, mem_literalNames_iff, hsymbol.eq_zero_iff, hsymbol.isLeast⟩
  obtain ⟨n, rfl⟩ := Int.eq_negSucc_of_lt_zero hneg
  exact ⟨rfl, rfl⟩

end Vocabulary

end SolidityLint
