import Mathlib.Order.Bounds.Defs
import SolidityLint.Vocabulary.Listing

/-!
# What a listing describes

A listing is read line by line, and the reader stops at the first line that it
cannot read. This file says without the reader what the lines mean. `Gives`
says which name a line gives to which number, `Objection` what is wrong with a
line that gives none, and `FirstGives` which line decides the name of a number.

The reader walks over the numbered lines once. Its two outcomes come from one
fact on a single line each: `Entry.read` succeeds exactly on the lines that
give something, and otherwise reports the objection. The loop adds nothing
but the order. If every line that is not blank gives an entry, the entries are
listed in order (`readEntries_of_wellFormed`); otherwise the failure is that of the
first other line (`readEntries_error`).

The tables are built from the entries afterwards, by number, up to the greatest
one. A number past the end of the tables has no entry, so the bound never cuts
off a name.
-/

namespace SolidityLint

/-! ## One line -/

namespace Listing

/-- The name and the number in a line are what stands before and after its last
equals sign. -/
def CutAt (line name key : List Char) : Prop :=
  line = name ++ '=' :: key ∧ '=' ∉ key

/-- The line, taken without the blanks around it, gives the number a name. -/
def Gives (line name : List Char) (id : Int) : Prop :=
  ∃ key, CutAt line name key ∧ name ≠ [] ∧ Text.readInteger? key = some id ∧ 1 ≤ id

/-- The line gives some number a name. -/
def WellFormed (line : List Char) : Prop := ∃ name id, Gives line name id

/-- What is wrong with a line that is not well formed. The checks are made in
this order, and each one only if those before it pass. -/
inductive Objection (line : List Char) : String → Prop where
  | noSeparator (h : '=' ∉ line) :
      Objection line ("expected name=id, got " ++ Text.quoted (String.ofList line))
  | notAnInteger {name key : List Char} (hcut : CutAt line name key)
      (hkey : Text.readInteger? key = none) :
      Objection line ("token type " ++ Text.quoted (String.ofList key) ++ " is not an integer")
  | invalidEntry {name key : List Char} {id : Int} (hcut : CutAt line name key)
      (hkey : Text.readInteger? key = some id) (h : name = [] ∨ id < 1) :
      Objection line ("invalid token entry " ++ Text.quoted (String.ofList line))

/-- The first line that gives the number a name of the sort gives it this name. -/
def FirstGives (lines : List (List Char)) (sort : List Char → Bool) (name : List Char)
    (id : Int) : Prop :=
  ∃ (k : Nat) (line : List Char), lines[k]? = some line ∧ Gives (Text.trim line) name id ∧
    sort name = true ∧ ∀ j < k, ∀ earlier other, lines[j]? = some earlier →
      Gives (Text.trim earlier) other id → sort other = false

/-- The line at this place is the first that is neither blank nor well formed. -/
def FirstBad (lines : List (List Char)) (k : Nat) (line : List Char) : Prop :=
  lines[k]? = some line ∧ Text.trim line ≠ [] ∧ ¬ WellFormed (Text.trim line) ∧
    ∀ j < k, ∀ earlier, lines[j]? = some earlier →
      Text.trim earlier ≠ [] → WellFormed (Text.trim earlier)

/-- The numbers that the lines give names to. -/
def numbers (lines : List (List Char)) : Set Int :=
  {id | ∃ line ∈ lines, ∃ name, Gives (Text.trim line) name id}

/-- Whether a name is a literal name. -/
def isLiteral (name : List Char) : Bool := name.head? == some '\x27'

end Listing

open Listing

theorem Text.cutAtLast?_eq_none_iff {sep : Char} {cs : List Char} :
    cutAtLast? sep cs = none ↔ sep ∉ cs := by
  induction cs with
  | nil => simp [cutAtLast?]
  | cons c rest ih =>
      rw [List.mem_cons, not_or, ← ih, cutAtLast?]
      cases hrest : cutAtLast? sep rest with
      | some cut => simp
      | none => simp [eq_comm]

theorem Text.cutAtLast?_append {sep : Char} {after : List Char} (h : sep ∉ after)
    (before : List Char) : cutAtLast? sep (before ++ sep :: after) = some (before, after) := by
  induction before with
  | nil =>
      rw [List.nil_append, cutAtLast?, cutAtLast?_eq_none_iff.mpr h]
      exact if_pos rfl
  | cons c rest ih => rw [List.cons_append, cutAtLast?, ih]

theorem Text.eq_append_of_cutAtLast? {sep : Char} {cs before after : List Char}
    (h : cutAtLast? sep cs = some (before, after)) :
    cs = before ++ sep :: after ∧ sep ∉ after := by
  induction cs generalizing before with
  | nil => cases h
  | cons c rest ih =>
      rw [cutAtLast?] at h
      split at h
      · next pre post hrest =>
          cases h
          obtain ⟨rfl, hafter⟩ := ih hrest
          exact ⟨rfl, hafter⟩
      · next hrest =>
          split at h
          · next hc =>
              cases h
              exact ⟨by rw [hc]; rfl, cutAtLast?_eq_none_iff.mp hrest⟩
          · cases h

theorem Listing.cutAtLast?_eq_some_iff {line name key : List Char} :
    Text.cutAtLast? '=' line = some (name, key) ↔ CutAt line name key :=
  ⟨Text.eq_append_of_cutAtLast?, fun h => h.1 ▸ Text.cutAtLast?_append h.2 name⟩

theorem Entry.read_eq_ok_iff {line : List Char} {number : Nat} {entry : Entry} :
    Entry.read line number = .ok entry ↔ Gives line entry.name.toList entry.id := by
  constructor
  · intro h
    rw [Entry.read] at h
    split at h
    · cases h
    · next name key hcut =>
        split at h
        · cases h
        · next value hread =>
            split at h
            · cases h
            · next hvalid =>
                cases h
                simp only [Bool.or_eq_true, List.isEmpty_iff, decide_eq_true_eq, not_or,
                  Int.not_lt] at hvalid
                refine ⟨key, ?_, ?_, ?_, ?_⟩
                · rw [String.toList_ofList]
                  exact cutAtLast?_eq_some_iff.mp hcut
                · simpa using hvalid.1
                · rw [hread, Int.toNat_of_nonneg (by omega)]
                · show (1 : Int) ≤ (value.toNat : Int)
                  omega
  · rintro ⟨key, hcut, hname, hread, hid⟩
    have hvalid : ¬ (entry.name.toList.isEmpty || decide ((entry.id : Int) < 1)) = true := by
      simp only [Bool.or_eq_true, List.isEmpty_iff, decide_eq_true_eq, not_or, Int.not_lt]
      exact ⟨hname, hid⟩
    rw [Entry.read, cutAtLast?_eq_some_iff.mpr hcut]
    simp only [hread]
    rw [if_neg hvalid, Int.toNat_natCast, String.ofList_toList]

theorem Entry.read_error {line : List Char} {number : Nat} {fault : VocabularyFault}
    (h : Entry.read line number = .error fault) :
    fault.line? = some number ∧ Objection line fault.reason := by
  rw [Entry.read] at h
  split at h
  · next hcut =>
      cases h
      exact ⟨rfl, .noSeparator (Text.cutAtLast?_eq_none_iff.mp hcut)⟩
  · next name key hcut =>
      have hcut' : CutAt line name key := cutAtLast?_eq_some_iff.mp hcut
      split at h
      · next hread =>
          cases h
          exact ⟨rfl, .notAnInteger hcut' hread⟩
      · next value hread =>
          split at h
          · next hinvalid =>
              cases h
              simp only [Bool.or_eq_true, List.isEmpty_iff, decide_eq_true_eq] at hinvalid
              exact ⟨rfl, .invalidEntry hcut' hread hinvalid⟩
          · cases h

theorem Listing.Gives.exists_entry {line name : List Char} {id : Int} (h : Gives line name id) :
    ∃ entry : Entry, entry.name.toList = name ∧ (entry.id : Int) = id := by
  obtain ⟨key, -, -, -, hid⟩ := h
  exact ⟨⟨String.ofList name, id.toNat⟩, String.toList_ofList, Int.toNat_of_nonneg (by omega)⟩

theorem Entry.read_eq_ok_of_wellFormed {line : List Char} (h : WellFormed line) (number : Nat) :
    ∃ entry, Entry.read line number = .ok entry := by
  obtain ⟨name, id, hgives⟩ := h
  obtain ⟨entry, rfl, rfl⟩ := hgives.exists_entry
  exact ⟨entry, Entry.read_eq_ok_iff.mpr hgives⟩

theorem Listing.not_wellFormed_of_error {line : List Char} {number : Nat}
    {fault : VocabularyFault} (h : Entry.read line number = .error fault) :
    ¬ WellFormed line := by
  intro hwell
  obtain ⟨entry, hok⟩ := Entry.read_eq_ok_of_wellFormed hwell number
  rw [hok] at h
  cases h

/-! ## The lines in order

`readEntries` meets the lines with their numbers. The statements count from any
number, because the walk over the rest of the lines starts further on. -/

/-- The entry of a line, if the line gives one. -/
def Entry.ofLine? (line : List Char) : Option Entry := (Entry.read (Text.trim line) 0).toOption

theorem Entry.ofLine?_eq_some_iff {line : List Char} {entry : Entry} :
    Entry.ofLine? line = some entry ↔ Gives (Text.trim line) entry.name.toList entry.id := by
  rw [← @Entry.read_eq_ok_iff _ 0, Entry.ofLine?]
  cases Entry.read (Text.trim line) 0 with
  | ok found => simp only [Except.toOption, Option.some.injEq, Except.ok.injEq]
  | error fault => exact iff_of_false (fun h => nomatch h) (fun h => nomatch h)

namespace Vocabulary

theorem readEntries_cons_blank {line : List Char} (h : Text.trim line = []) (number : Nat)
    (rest : List (List Char × Nat)) :
    readEntries ((line, number) :: rest) = readEntries rest := by
  rw [readEntries, h]

theorem readEntries_cons_ok {line : List Char} {number : Nat} {entry : Entry}
    (hline : Text.trim line ≠ []) (h : Entry.read (Text.trim line) number = .ok entry)
    (rest : List (List Char × Nat)) :
    readEntries ((line, number) :: rest) = (readEntries rest).map (entry :: ·) := by
  rw [readEntries]
  split
  · next hblank => exact absurd hblank hline
  · next c cs htrim =>
      rw [← htrim, h]
      cases readEntries rest <;> rfl

theorem readEntries_cons_error {line : List Char} {number : Nat} {fault : VocabularyFault}
    (hline : Text.trim line ≠ []) (h : Entry.read (Text.trim line) number = .error fault)
    (rest : List (List Char × Nat)) :
    readEntries ((line, number) :: rest) = .error fault := by
  rw [readEntries]
  split
  · next hblank => exact absurd hblank hline
  · next c cs htrim =>
      rw [← htrim, h]
      rfl

theorem readEntries_of_wellFormed {lines : List (List Char)}
    (h : ∀ line ∈ lines, Text.trim line ≠ [] → WellFormed (Text.trim line)) (number : Nat) :
    readEntries (lines.zipIdx number) = .ok (lines.filterMap Entry.ofLine?) := by
  induction lines generalizing number with
  | nil => rfl
  | cons line rest ih =>
      have hrest := ih (fun l hl => h l (List.mem_cons_of_mem line hl)) (number + 1)
      rw [List.zipIdx_cons]
      by_cases hline : Text.trim line = []
      · have hnone : Entry.ofLine? line = none := by rw [Entry.ofLine?, hline]; rfl
        rw [readEntries_cons_blank hline, hrest, List.filterMap_cons_none hnone]
      · obtain ⟨entry, hread⟩ :=
          Entry.read_eq_ok_of_wellFormed (h line List.mem_cons_self hline) number
        have hsome : Entry.ofLine? line = some entry :=
          Entry.ofLine?_eq_some_iff.mpr (Entry.read_eq_ok_iff.mp hread)
        rw [readEntries_cons_ok hline hread, hrest, List.filterMap_cons_some hsome]
        rfl

theorem wellFormed_of_readEntries {lines : List (List Char)} {number : Nat}
    {entries : List Entry} (h : readEntries (lines.zipIdx number) = .ok entries) :
    ∀ line ∈ lines, Text.trim line ≠ [] → WellFormed (Text.trim line) := by
  induction lines generalizing number entries with
  | nil => exact fun line hline => nomatch hline
  | cons first rest ih =>
      rw [List.zipIdx_cons] at h
      rw [List.forall_mem_cons]
      by_cases hfirst : Text.trim first = []
      · rw [readEntries_cons_blank hfirst] at h
        exact ⟨absurd hfirst, ih h⟩
      · cases hread : Entry.read (Text.trim first) number with
        | ok entry =>
            rw [readEntries_cons_ok hfirst hread] at h
            cases hrest : readEntries (rest.zipIdx (number + 1)) with
            | ok others => exact ⟨fun _ => ⟨_, _, Entry.read_eq_ok_iff.mp hread⟩, ih hrest⟩
            | error fault => rw [hrest] at h; cases h
        | error fault =>
            rw [readEntries_cons_error hfirst hread] at h
            cases h

/-- The reader stops at the first line that is neither blank nor well formed. -/
theorem readEntries_error {lines : List (List Char)} {number : Nat} {fault : VocabularyFault}
    (h : readEntries (lines.zipIdx number) = .error fault) :
    ∃ k line, lines[k]? = some line ∧ Text.trim line ≠ [] ∧
      Entry.read (Text.trim line) (number + k) = .error fault ∧
      ∀ j < k, ∀ earlier, lines[j]? = some earlier →
        Text.trim earlier ≠ [] → WellFormed (Text.trim earlier) := by
  induction lines generalizing number with
  | nil => cases h
  | cons line rest ih =>
      rw [List.zipIdx_cons] at h
      -- A line that passes moves the first bad one down by one place.
      have hnext : (Text.trim line ≠ [] → WellFormed (Text.trim line)) →
          readEntries (rest.zipIdx (number + 1)) = .error fault →
          ∃ k line', (line :: rest)[k]? = some line' ∧ Text.trim line' ≠ [] ∧
            Entry.read (Text.trim line') (number + k) = .error fault ∧
            ∀ j < k, ∀ earlier, (line :: rest)[j]? = some earlier →
              Text.trim earlier ≠ [] → WellFormed (Text.trim earlier) := by
        intro hwell hrest
        obtain ⟨k, line', hget, hne, hread, hbefore⟩ := ih hrest
        refine ⟨k + 1, line', by rw [List.getElem?_cons_succ]; exact hget, hne, ?_, ?_⟩
        · rw [← Nat.add_assoc, Nat.add_right_comm]
          exact hread
        · intro j hj earlier hearlier
          cases j with
          | zero =>
              rw [List.getElem?_cons_zero, Option.some.injEq] at hearlier
              exact hearlier ▸ hwell
          | succ j =>
              rw [List.getElem?_cons_succ] at hearlier
              exact hbefore j (by omega) earlier hearlier
      by_cases hline : Text.trim line = []
      · rw [readEntries_cons_blank hline] at h
        exact hnext (absurd hline) h
      · cases hread : Entry.read (Text.trim line) number with
        | ok entry =>
            rw [readEntries_cons_ok hline hread] at h
            refine hnext (fun _ => ⟨_, _, Entry.read_eq_ok_iff.mp hread⟩) ?_
            cases hrest : readEntries (rest.zipIdx (number + 1)) with
            | ok entries => rw [hrest] at h; cases h
            | error fault' => rw [hrest] at h; exact h
        | error fault' =>
            rw [readEntries_cons_error hline hread] at h
            cases h
            exact ⟨0, line, rfl, hline, hread, fun j hj => absurd hj (Nat.not_lt_zero j)⟩

/-! ## The tables -/

theorem firstName?_eq_some_iff {lines : List (List Char)} {sort : List Char → Bool} {id : Nat}
    {name : String} :
    firstName? ((lines.filterMap Entry.ofLine?).filter fun entry => sort entry.name.toList) id =
      some name ↔ FirstGives lines sort name.toList id := by
  rw [firstName?, List.find?_filter, List.find?_filterMap, Option.map_eq_some_iff]
  constructor
  · rintro ⟨entry, hentry, rfl⟩
    obtain ⟨line, hfind, hline⟩ := Option.bind_eq_some_iff.mp hentry
    obtain ⟨hfits, k, hk, hget, hbefore⟩ := List.find?_eq_some_iff_getElem.mp hfind
    simp only [hline, Option.any_some, decide_eq_true_eq, beq_iff_eq] at hfits
    obtain ⟨hsort, rfl⟩ := hfits
    refine ⟨k, line, List.getElem?_eq_some_iff.mpr ⟨hk, hget⟩,
      Entry.ofLine?_eq_some_iff.mp hline, hsort, ?_⟩
    intro j hj earlier other hearlier hgives
    obtain ⟨entry', rfl, hid⟩ := hgives.exists_entry
    obtain ⟨hlt, rfl⟩ := List.getElem?_eq_some_iff.mp hearlier
    have hno := hbefore j hj
    rw [Entry.ofLine?_eq_some_iff.mpr (hid ▸ hgives), Option.any_some] at hno
    simpa [Int.ofNat_inj.mp hid] using hno
  · rintro ⟨k, line, hget, hgives, hsort, hbefore⟩
    obtain ⟨hk, rfl⟩ := List.getElem?_eq_some_iff.mp hget
    have hline : Entry.ofLine? lines[k] = some ⟨name, id⟩ :=
      Entry.ofLine?_eq_some_iff.mpr hgives
    refine ⟨⟨name, id⟩, Option.bind_eq_some_iff.mpr ⟨lines[k], ?_, hline⟩, rfl⟩
    refine List.find?_eq_some_iff_getElem.mpr ⟨by simp [hline, hsort], k, hk, rfl, ?_⟩
    intro j hj
    cases hearlier : Entry.ofLine? (lines[j]) with
    | none => rfl
    | some entry =>
        have hgives' := Entry.ofLine?_eq_some_iff.mp hearlier
        have hother : entry.id = id → sort entry.name.toList = false := fun hid =>
          hbefore j hj _ _ (List.getElem?_eq_getElem (Nat.lt_trans hj hk)) (hid ▸ hgives')
        simp only [Option.any_some, Bool.not_eq_true', decide_eq_false_iff_not, beq_iff_eq,
          not_and]
        intro hsort' hid
        exact absurd (hother hid) (by simp [hsort'])

theorem name?_firstName? {entries chosen : List Entry} (h : ∀ entry ∈ chosen, entry ∈ entries)
    (id : Nat) :
    NameTable.name? ((List.range ((entries.map (·.id)).foldl max 0 + 1)).map
      (firstName? chosen)).toArray id = firstName? chosen id := by
  rw [← Int.ofNat_eq_natCast, NameTable.name?, List.getElem?_toArray, List.getElem?_map]
  by_cases hid : id < (entries.map (·.id)).foldl max 0 + 1
  · rw [List.getElem?_range hid]
    rfl
  · -- Past the greatest number no entry is left.
    have hnone : chosen.find? (·.id == id) = none := by
      rw [List.find?_eq_none]
      intro entry hentry heq
      have hmem : entry.id ∈ entries.map (·.id) := List.mem_map_of_mem (h entry hentry)
      have hle : entry.id ≤ (entries.map (·.id)).max?.getD 0 := List.le_max?_getD_of_mem hmem
      rw [List.foldl_max] at hid
      rw [beq_iff_eq] at heq
      omega
    rw [List.getElem?_eq_none (by simpa using Nat.le_of_not_lt hid), firstName?, hnone]
    rfl

theorem maxTokenType_ofEntries (entries : List Entry) :
    (ofEntries entries).maxTokenType = ((entries.map (·.id)).foldl max 0 : Nat) := by
  simp [ofEntries, ofNames, maxTokenType, size]

theorem name?_eq_some_iff {lines : List (List Char)} {sort : List Char → Bool} {id : Int}
    {name : String} :
    NameTable.name?
        ((List.range (((lines.filterMap Entry.ofLine?).map (·.id)).foldl max 0 + 1)).map
          (firstName? ((lines.filterMap Entry.ofLine?).filter
            fun entry => sort entry.name.toList))).toArray id = some name ↔
      FirstGives lines sort name.toList id := by
  cases id with
  | ofNat n =>
      rw [Int.ofNat_eq_natCast, name?_firstName? fun _ h => (List.mem_filter.mp h).1]
      exact firstName?_eq_some_iff
  | negSucc n =>
      refine iff_of_false (fun h => nomatch h) ?_
      rintro ⟨k, line, -, ⟨key, -, -, -, hid⟩, -⟩
      omega

theorem literalName?_eq_some_iff {lines : List (List Char)} {id : Int} {name : String} :
    (ofEntries (lines.filterMap Entry.ofLine?)).literalName? id = some name ↔
      FirstGives lines isLiteral name.toList id :=
  @name?_eq_some_iff lines isLiteral id name

theorem symbolName?_eq_some_iff {lines : List (List Char)} {id : Int} {name : String} :
    (ofEntries (lines.filterMap Entry.ofLine?)).symbolName? id = some name ↔
      FirstGives lines (!isLiteral ·) name.toList id :=
  @name?_eq_some_iff lines (!isLiteral ·) id name

theorem mem_numbers_iff {lines : List (List Char)} {id : Int} :
    id ∈ numbers lines ↔
      ∃ n : Nat, n ∈ (lines.filterMap Entry.ofLine?).map (·.id) ∧ (n : Int) = id := by
  constructor
  · rintro ⟨line, hline, name, hgives⟩
    obtain ⟨entry, rfl, rfl⟩ := hgives.exists_entry
    have hentry : entry ∈ lines.filterMap Entry.ofLine? :=
      List.mem_filterMap.mpr ⟨line, hline, Entry.ofLine?_eq_some_iff.mpr hgives⟩
    exact ⟨entry.id, List.mem_map_of_mem hentry, rfl⟩
  · rintro ⟨n, hn, rfl⟩
    obtain ⟨entry, hentry, rfl⟩ := List.mem_map.mp hn
    obtain ⟨line, hline, hof⟩ := List.mem_filterMap.mp hentry
    exact ⟨line, hline, entry.name.toList, Entry.ofLine?_eq_some_iff.mp hof⟩

theorem maxTokenType_isGreatest (lines : List (List Char)) :
    IsGreatest (numbers lines) (ofEntries (lines.filterMap Entry.ofLine?)).maxTokenType ∨
      (ofEntries (lines.filterMap Entry.ofLine?)).maxTokenType = 0 ∧
        ∀ id, id ∉ numbers lines := by
  rw [maxTokenType_ofEntries, List.foldl_max, Nat.zero_max]
  cases hmax : ((lines.filterMap Entry.ofLine?).map (·.id)).max? with
  | none =>
      refine Or.inr ⟨rfl, fun id hid => ?_⟩
      obtain ⟨n, hn, -⟩ := mem_numbers_iff.mp hid
      rw [List.max?_eq_none_iff.mp hmax] at hn
      cases hn
  | some greatest =>
      obtain ⟨hmem, hle⟩ := List.max?_eq_some_iff.mp hmax
      refine Or.inl ⟨mem_numbers_iff.mpr ⟨greatest, hmem, rfl⟩, fun id hid => ?_⟩
      obtain ⟨n, hn, rfl⟩ := mem_numbers_iff.mp hid
      exact Int.ofNat_le.mpr (hle n hn)

/-- An accepted listing describes the vocabulary of the entries of its lines. -/
theorem eq_ofEntries_of_ofListing {text : String} {vocabulary : Vocabulary}
    (h : ofListing text = .ok vocabulary) :
    vocabulary = ofEntries ((Text.lines text.toList).filterMap Entry.ofLine?) := by
  rw [ofListing, Text.numberedLines] at h
  cases hread : readEntries ((Text.lines text.toList).zipIdx 1) with
  | error fault => rw [hread] at h; cases h
  | ok entries =>
      rw [hread] at h
      have hentries := readEntries_of_wellFormed (wellFormed_of_readEntries hread) 1
      rw [hread] at hentries
      rw [← Except.ok.inj h, Except.ok.inj hentries]

theorem name_ne_empty_of_firstGives {lines : List (List Char)} {sort : List Char → Bool}
    {id : Int} {name : String} (h : FirstGives lines sort name.toList id) : name ≠ "" := by
  obtain ⟨k, line, -, ⟨key, -, hname, -, -⟩, -, -⟩ := h
  intro hempty
  rw [hempty] at hname
  exact hname rfl

/-- A listing gives no empty names. -/
theorem names_ne_empty_of_ofListing {text : String} {vocabulary : Vocabulary}
    (h : ofListing text = .ok vocabulary) (id : Int) :
    vocabulary.literalName? id ≠ some "" ∧ vocabulary.symbolName? id ≠ some "" := by
  rw [eq_ofEntries_of_ofListing h]
  constructor
  · intro hname
    exact name_ne_empty_of_firstGives (literalName?_eq_some_iff.mp hname) rfl
  · intro hname
    exact name_ne_empty_of_firstGives (symbolName?_eq_some_iff.mp hname) rfl

/-- A listing is accepted exactly if every line that is not blank is well formed.
Then each number has the name that the first line for it gives, for literal
names and for symbols apart, and the greatest number is that of the tables, which
is zero without entries. Otherwise the first line that is not well formed is
reported, with what the first of the checks finds in it. -/
theorem ofListing_describes (text : String) :
    let lines := Text.lines text.toList
    ((∃ vocabulary, ofListing text = .ok vocabulary) ↔
        ∀ line ∈ lines, Text.trim line ≠ [] → WellFormed (Text.trim line)) ∧
      (∀ vocabulary, ofListing text = .ok vocabulary →
        (∀ (id : Int) (name : String), vocabulary.literalName? id = some name ↔
          FirstGives lines isLiteral name.toList id) ∧
        (∀ (id : Int) (name : String), vocabulary.symbolName? id = some name ↔
          FirstGives lines (!isLiteral ·) name.toList id) ∧
        (IsGreatest (numbers lines) vocabulary.maxTokenType ∨
          vocabulary.maxTokenType = 0 ∧ ∀ id, id ∉ numbers lines)) ∧
      (∀ fault, ofListing text = .error fault →
        ∃ k line vocabularyFault, fault = .vocabulary vocabularyFault ∧ FirstBad lines k line ∧
          vocabularyFault.line? = some (k + 1) ∧
          Objection (Text.trim line) vocabularyFault.reason) := by
  intro lines
  cases hread : readEntries (lines.zipIdx 1) with
  | ok entries =>
      have hof : ofListing text = .ok (ofEntries entries) := by
        rw [ofListing, Text.numberedLines, hread]
      have hwell := wellFormed_of_readEntries hread
      obtain rfl : lines.filterMap Entry.ofLine? = entries :=
        Except.ok.inj ((readEntries_of_wellFormed hwell 1).symm.trans hread)
      refine ⟨iff_of_true ⟨_, hof⟩ hwell, ?_, ?_⟩
      · intro vocabulary hvocabulary
        obtain rfl := Except.ok.inj (hof.symm.trans hvocabulary)
        exact ⟨fun _ _ => literalName?_eq_some_iff, fun _ _ => symbolName?_eq_some_iff,
          maxTokenType_isGreatest lines⟩
      · intro fault hfault
        cases hof.symm.trans hfault
  | error vocabularyFault =>
      have hof : ofListing text = .error (.vocabulary vocabularyFault) := by
        rw [ofListing, Text.numberedLines, hread]
      obtain ⟨k, line, hget, hline, herror, hbefore⟩ := readEntries_error hread
      have hbad := not_wellFormed_of_error herror
      obtain ⟨hnumber, hreason⟩ := Entry.read_error herror
      refine ⟨iff_of_false ?_ ?_, ?_, ?_⟩
      · rintro ⟨vocabulary, hvocabulary⟩
        cases hof.symm.trans hvocabulary
      · exact fun hwell => hbad (hwell line (List.mem_of_getElem? hget) hline)
      · intro vocabulary hvocabulary
        cases hof.symm.trans hvocabulary
      · intro fault hfault
        obtain rfl := Except.error.inj (hof.symm.trans hfault)
        refine ⟨k, line, vocabularyFault, rfl, ⟨hget, hline, hbad, hbefore⟩, ?_, hreason⟩
        rw [hnumber, Nat.add_comm]

end Vocabulary

end SolidityLint
