import Mathlib.Algebra.Group.Nat.Defs
import Mathlib.Data.List.Nodup
import SolidityLint.Proofs.ListingFormat
import SolidityLint.Proofs.NameIndex
import SolidityLint.Proofs.TextPieces

/-!
# A vocabulary survives its listing

A vocabulary that was read from a listing can be written down again, one line for
each name, and the lines can be put in any order. Reading them gives the same
vocabulary.

Two things have to be seen. A line that is written for an entry is read as that entry:
its name was part of a line before, so it holds no break and does not begin with a
blank, whatever else it holds, and its number was read from digits, so it has no more
of them than a numeral may have. The name may hold equals signs, but the digits behind
the last one do not.

And the order of the lines does not matter, although the first entry for a number is
the one that counts: a vocabulary gives a number at most one name of each sort, so no
two of the written entries compete. What was lost when the listing was first read, the
later names for a number, is not written.
-/

namespace SolidityLint

/-! ## Numerals -/

namespace Text

theorem toNat_of_isDigit {c : Char} (h : c.isDigit = true) : 48 ≤ c.toNat ∧ c.toNat ≤ 57 := by
  simpa [Char.isDigit, UInt32.le_iff_toNat_le] using h

theorem decimalValue?_eq_some {c : Char} (h : c.isDigit = true) :
    decimalValue? c = some (c.toNat - '0'.toNat) := by
  have hrange := toNat_of_isDigit h
  have hfirst : digitZeros.find? (fun start => start ≤ c.toNat && c.toNat < start + 10) =
      some 48 := by
    rw [digitZeros, List.find?_cons_of_pos]
    simp only [Bool.and_eq_true, decide_eq_true_eq]
    omega
  rw [decimalValue?, hfirst]
  rfl

theorem decimalValue?_lt {c : Char} {d : Nat} (h : decimalValue? c = some d) : d < 10 := by
  obtain ⟨start, hstart, rfl⟩ := Option.map_eq_some_iff.mp h
  have hrange := List.find?_some hstart
  simp only [Bool.and_eq_true, decide_eq_true_eq] at hrange
  omega

theorem readDigits?_eq_some {cs : List Char} (h : ∀ c ∈ cs, c.isDigit = true) (value : Nat) :
    readDigits? value cs = some (Nat.ofDigitChars 10 cs value) := by
  induction cs generalizing value with
  | nil => rfl
  | cons c rest ih =>
      have hc := h c List.mem_cons_self
      have hrest := ih fun d hd => h d (List.mem_cons_of_mem c hd)
      rw [readDigits?, decimalValue?_eq_some hc, Option.bind_some, hrest, Nat.ofDigitChars_cons]
      intro d more hunderscore
      rw [hunderscore] at hc
      cases hc

/-- One more digit. -/
theorem lt_mul_pow_succ {value d n width : Nat} (hd : d < 10)
    (h : n < (10 * value + d + 1) * 10 ^ width) : n < (value + 1) * 10 ^ (width + 1) := by
  calc n < (10 * value + d + 1) * 10 ^ width := h
    _ ≤ ((value + 1) * 10) * 10 ^ width := Nat.mul_le_mul_right _ (by omega)
    _ = (value + 1) * 10 ^ (width + 1) := by rw [Nat.mul_assoc, Nat.pow_succ']

theorem filter_cons_of_decimalValue? {c : Char} {d : Nat} (h : decimalValue? c = some d)
    (rest : List Char) : (c :: rest).filter (· ≠ '_') = c :: rest.filter (· ≠ '_') := by
  refine List.filter_cons_of_pos ?_
  rw [decide_eq_true_eq]
  rintro rfl
  cases h

/-- Each digit raises the bound to the next power of ten, and underscores do not count. -/
theorem readDigits?_lt {value n : Nat} {cs : List Char} (h : readDigits? value cs = some n) :
    n < (value + 1) * 10 ^ (cs.filter (· ≠ '_')).length := by
  fun_induction readDigits? value cs with
  | case1 value =>
      cases h
      simp
  | case2 value c rest ih =>
      obtain ⟨d, hd, hrest⟩ := Option.bind_eq_some_iff.mp h
      rw [List.filter_cons_of_neg (by simp), filter_cons_of_decimalValue? hd, List.length_cons]
      exact lt_mul_pow_succ (decimalValue?_lt hd) (ih d hrest)
  | case3 value c rest _ ih =>
      obtain ⟨d, hd, hrest⟩ := Option.bind_eq_some_iff.mp h
      rw [filter_cons_of_decimalValue? hd, List.length_cons]
      exact lt_mul_pow_succ (decimalValue?_lt hd) (ih d hrest)

theorem readNatural?_lt {cs : List Char} {n : Nat} (h : readNatural? cs = some n) :
    n < 10 ^ maxDigits := by
  cases cs with
  | nil => cases h
  | cons c rest =>
      rw [readNatural?] at h
      split at h
      · cases h
      · next hlength =>
          obtain ⟨d, hd, hrest⟩ := Option.bind_eq_some_iff.mp h
          have hlt := readDigits?_lt hrest
          rw [filter_cons_of_decimalValue? hd, List.length_cons] at hlength
          have hd' := decimalValue?_lt hd
          have hfirst : n < (0 + 1) * 10 ^ ((rest.filter (· ≠ '_')).length + 1) :=
            lt_mul_pow_succ hd' (by rw [Nat.mul_zero, Nat.zero_add]; exact hlt)
          rw [Nat.zero_add, Nat.one_mul] at hfirst
          exact Nat.lt_of_lt_of_le hfirst (Nat.pow_le_pow_right (by omega) (by omega))

theorem readInteger?_lt {cs : List Char} {n : Nat} (h : readInteger? cs = some (n : Int)) :
    n < 10 ^ maxDigits := by
  rw [readInteger?] at h
  split at h
  · -- A number that is not negative and has a minus sign is zero.
    obtain ⟨m, hread, hm⟩ := Option.map_eq_some_iff.mp h
    obtain ⟨k, -, hk⟩ := Option.bind_eq_some_iff.mp hread
    have hzero : n = 0 := by
      have hnonneg : (k : Int) = m := Option.some.inj hk
      omega
    rw [hzero]
    exact Nat.pow_pos (by omega)
  all_goals
    obtain ⟨m, hread, hm⟩ := Option.map_eq_some_iff.mp h
    obtain rfl : m = n := Int.ofNat_inj.mp hm
    exact readNatural?_lt hread

theorem isDigit_of_mem_toDigits {n : Nat} : ∀ c ∈ Nat.toDigits 10 n, c.isDigit = true :=
  fun _ hc => Nat.isDigit_of_mem_toDigits (by omega) (by omega) hc

theorem isBlank_eq_false {c : Char} (h : c.isDigit = true) : isBlank c = false := by
  have hrange := toNat_of_isDigit h
  simp only [isBlank, inRanges, blankRanges, List.any_cons, List.any_nil, Bool.or_false,
    Bool.or_eq_false_iff, Bool.and_eq_false_iff, decide_eq_false_iff_not]
  omega

theorem readNatural?_toDigits {n : Nat} (h : n < 10 ^ maxDigits) :
    readNatural? (Nat.toDigits 10 n) = some n := by
  have hlength : (Nat.toDigits 10 n).length ≤ maxDigits :=
    (Nat.length_toDigits_le_iff (by omega) (by simp [maxDigits])).mpr h
  have hvalue : Nat.ofDigitChars 10 (Nat.toDigits 10 n) 0 = n :=
    Nat.ofDigitChars_toDigits (by omega) (by omega)
  have hdigits := isDigit_of_mem_toDigits (n := n)
  cases hcs : Nat.toDigits 10 n with
  | nil => exact absurd hcs Nat.toDigits_ne_nil
  | cons c rest =>
      rw [hcs] at hlength hvalue hdigits
      have hfilter := List.length_filter_le (fun c => decide (c ≠ '_')) (c :: rest)
      rw [Nat.ofDigitChars_cons, Nat.mul_zero, Nat.zero_add] at hvalue
      rw [readNatural?, if_neg (by omega), decimalValue?_eq_some (hdigits c List.mem_cons_self),
        Option.bind_some, readDigits?_eq_some fun d hd => hdigits d (List.mem_cons_of_mem c hd),
        hvalue]

theorem readInteger?_toDigits {n : Nat} (h : n < 10 ^ maxDigits) :
    readInteger? (Nat.toDigits 10 n) = some (n : Int) := by
  have hdigits := isDigit_of_mem_toDigits (n := n)
  have hblank : ∀ c ∈ Nat.toDigits 10 n, isNumeralBlank c = false := fun c hc => by
    rw [isNumeralBlank, isBlank_eq_false (hdigits c hc), Bool.false_and]
  have hkeep : ∀ cs : List Char, (∀ c ∈ cs, isNumeralBlank c = false) →
      cs.dropWhile isNumeralBlank = cs := by
    intro cs hcs
    rw [List.dropWhile_eq_self_iff]
    intro hpos
    rw [hcs _ (List.getElem_mem hpos)]
    exact Bool.false_ne_true
  have hreverse : ∀ c ∈ (Nat.toDigits 10 n).reverse, isNumeralBlank c = false := fun c hc =>
    hblank c (List.mem_reverse.mp hc)
  rw [readInteger?, hkeep _ hblank, dropEndWhile, hkeep _ hreverse, List.reverse_reverse]
  split
  · next rest hminus => exact absurd (hdigits '-' (hminus ▸ List.mem_cons_self)) (by decide)
  · next rest hplus => exact absurd (hdigits '+' (hplus ▸ List.mem_cons_self)) (by decide)
  · rw [readNatural?_toDigits h]
    rfl

end Text

/-! ## One entry -/

open Listing

/-- The entry can stand on a line of its own. -/
structure Entry.Printable (entry : Entry) : Prop where
  begins : ∃ c rest, entry.name.toList = c :: rest ∧ Text.isBlank c = false
  unbroken : Text.Unbroken entry.name.toList
  pos : 1 ≤ entry.id
  lt : entry.id < 10 ^ Text.maxDigits

/-- What stood on a line of a text can stand on a line again. -/
theorem Entry.printable_of_ofLine? {cs line : List Char} {entry : Entry}
    (hline : line ∈ Text.lines cs) (h : Entry.ofLine? line = some entry) : entry.Printable := by
  obtain ⟨key, ⟨hcut, -⟩, hname, hread, hid⟩ := Entry.ofLine?_eq_some_iff.mp h
  obtain ⟨c, rest, hcons⟩ := List.exists_cons_of_ne_nil hname
  refine ⟨⟨c, rest, hcons, ?_⟩, ?_, by omega, Text.readInteger?_lt hread⟩
  · rw [hcons, List.cons_append] at hcut
    exact Text.isBlank_of_trim_eq_cons hcut
  · intro d hd
    have hmem : d ∈ Text.trim line := hcut ▸ List.mem_append_left _ hd
    exact Text.unbroken_of_mem_lines line hline d ((Text.trim_sublist line).subset hmem)

theorem Entry.toList_render (entry : Entry) :
    entry.render.toList = entry.name.toList ++ '=' :: Nat.toDigits 10 entry.id := by
  simp [Entry.render]

namespace Entry.Printable

variable {entry : Entry}

theorem trim_render (h : entry.Printable) :
    Text.trim entry.render.toList = entry.render.toList := by
  obtain ⟨c, rest, hname, hc⟩ := h.begins
  obtain ⟨init, d, hdigits⟩ : ∃ init d, Nat.toDigits 10 entry.id = init ++ [d] := by
    rcases List.eq_nil_or_concat (Nat.toDigits 10 entry.id) with hnil | ⟨init, d, hlast⟩
    · exact absurd hnil Nat.toDigits_ne_nil
    · exact ⟨init, d, by rw [hlast, List.concat_eq_append]⟩
  have hd : Text.isBlank d = false :=
    Text.isBlank_eq_false (Text.isDigit_of_mem_toDigits d (by rw [hdigits]; simp))
  have hends : entry.render.toList = c :: (rest ++ '=' :: init) ++ [d] := by
    rw [Entry.toList_render, hname, hdigits]
    simp
  rw [hends, Text.trim_eq_self hc hd]

theorem unbroken_render (h : entry.Printable) : Text.Unbroken entry.render.toList := by
  intro c hc
  rw [Entry.toList_render, List.mem_append, List.mem_cons] at hc
  rcases hc with hc | rfl | hc
  · exact h.unbroken c hc
  · decide
  · have hrange := Text.toNat_of_isDigit (Text.isDigit_of_mem_toDigits c hc)
    simp only [Text.isBreak, List.contains_eq_mem, decide_eq_false_iff_not, List.mem_cons,
      List.not_mem_nil, or_false]
    omega

theorem gives (h : entry.Printable) :
    Gives entry.render.toList entry.name.toList (entry.id : Int) := by
  have hequals : '=' ∉ Nat.toDigits 10 entry.id := fun hmem =>
    absurd (Text.isDigit_of_mem_toDigits '=' hmem) (by decide)
  have hname : entry.name.toList ≠ [] := by
    obtain ⟨c, rest, hcons, -⟩ := h.begins
    exact hcons ▸ List.cons_ne_nil c rest
  have hpos := h.pos
  exact ⟨_, ⟨entry.toList_render, hequals⟩, hname, Text.readInteger?_toDigits h.lt, by omega⟩

theorem ofLine?_render (h : entry.Printable) : Entry.ofLine? entry.render.toList = some entry := by
  rw [Entry.ofLine?_eq_some_iff, h.trim_render]
  exact h.gives

end Entry.Printable

/-! ## All entries -/

namespace Vocabulary

/-- The listing of entries, in their order. -/
def printListing (entries : List Entry) : String := "\n".intercalate (entries.map Entry.render)

theorem lines_printListing {entries : List Entry} (h : ∀ entry ∈ entries, entry.Printable) :
    Text.lines (printListing entries).toList = entries.map (·.render.toList) := by
  have hunbroken : ∀ line ∈ entries.map (·.render.toList), Text.Unbroken line := by
    intro line hline
    obtain ⟨entry, hentry, rfl⟩ := List.mem_map.mp hline
    exact (h entry hentry).unbroken_render
  have hlast : (entries.map (·.render.toList)).getLast? ≠ some [] := by
    intro hempty
    obtain ⟨entry, -, hnil⟩ := List.mem_map.mp (List.mem_of_getLast? hempty)
    rw [Entry.toList_render, List.append_eq_nil_iff] at hnil
    cases hnil.2
  rw [printListing, String.toList_intercalate, List.map_map]
  exact (Text.lines_intercalate hunbroken).trans (if_neg hlast)

/-- The lines that are written for entries are read as these entries. -/
theorem ofListing_printListing {entries : List Entry} (h : ∀ entry ∈ entries, entry.Printable) :
    ofListing (printListing entries) = .ok (ofEntries entries) := by
  have hwell : ∀ line ∈ entries.map (·.render.toList), Text.trim line ≠ [] →
      WellFormed (Text.trim line) := by
    intro line hline _
    obtain ⟨entry, hentry, rfl⟩ := List.mem_map.mp hline
    rw [(h entry hentry).trim_render]
    exact ⟨_, _, (h entry hentry).gives⟩
  have hentries : (entries.map (·.render.toList)).filterMap Entry.ofLine? = entries := by
    rw [List.filterMap_map]
    calc entries.filterMap (Entry.ofLine? ∘ (·.render.toList))
        = entries.filterMap some :=
          List.filterMap_congr fun entry hentry => (h entry hentry).ofLine?_render
      _ = entries := List.filterMap_some
  rw [ofListing, Text.numberedLines, lines_printListing h, readEntries_of_wellFormed hwell,
    hentries]

/-! ## Any order -/

/-- The entries of a table. -/
def entriesOf (table : NameTable) : List Entry := table.named.map fun entry => ⟨entry.1, entry.2⟩

theorem entries_eq (vocabulary : Vocabulary) :
    vocabulary.entries = entriesOf vocabulary.symbols ++ entriesOf vocabulary.literals :=
  List.map_append

theorem mem_entriesOf {table : NameTable} {entry : Entry} :
    entry ∈ entriesOf table ↔ 1 ≤ entry.id ∧ table.name? entry.id = some entry.name := by
  rw [← NameTable.mem_named, entriesOf, List.mem_map]
  constructor
  · rintro ⟨named, hnamed, rfl⟩
    exact hnamed
  · intro hnamed
    exact ⟨_, hnamed, rfl⟩

theorem nodup_entriesOf (table : NameTable) : ((entriesOf table).map (·.id)).Nodup := by
  rw [entriesOf, List.map_map, List.Nodup, List.pairwise_map]
  exact table.pairwise_named.imp Nat.ne_of_lt

theorem mem_of_firstName? {entries : List Entry} {id : Nat} {name : String}
    (h : firstName? entries id = some name) : (⟨name, id⟩ : Entry) ∈ entries := by
  obtain ⟨entry, hfind, rfl⟩ := Option.map_eq_some_iff.mp h
  obtain rfl : entry.id = id := by simpa using List.find?_some hfind
  exact List.mem_of_find?_eq_some hfind

theorem exists_firstName? {entries : List Entry} {entry : Entry} (h : entry ∈ entries) :
    ∃ name, firstName? entries entry.id = some name := by
  obtain ⟨found, hfound⟩ : ∃ found, entries.find? (·.id == entry.id) = some found := by
    rw [← Option.isSome_iff_exists, List.find?_isSome]
    exact ⟨entry, h, beq_self_eq_true entry.id⟩
  exact ⟨found.name, by rw [firstName?, hfound]; rfl⟩

/-- Where no number has two entries, the one that it has is the first one in every order. -/
theorem firstName?_eq_some_iff_mem {entries : List Entry} (h : (entries.map (·.id)).Nodup)
    {id : Nat} {name : String} :
    firstName? entries id = some name ↔ (⟨name, id⟩ : Entry) ∈ entries := by
  refine ⟨mem_of_firstName?, fun hmem => ?_⟩
  obtain ⟨other, hother⟩ := exists_firstName? hmem
  have hsame : (⟨other, id⟩ : Entry) = ⟨name, id⟩ :=
    List.inj_on_of_nodup_map h (mem_of_firstName? hother) hmem rfl
  rw [hother, (Entry.mk.inj hsame).1]

theorem firstName?_perm {xs ys : List Entry} (h : xs.Perm ys) (hnodup : (ys.map (·.id)).Nodup) :
    firstName? xs = firstName? ys := by
  have hnodup' : (xs.map (·.id)).Nodup := (h.map (·.id)).nodup_iff.mpr hnodup
  funext id
  refine Option.ext fun name => ?_
  rw [firstName?_eq_some_iff_mem hnodup, firstName?_eq_some_iff_mem hnodup', h.mem_iff]

/-- The table of the entries of a sort, as long as the tables of all entries. -/
def tableOf (entries chosen : List Entry) : NameTable :=
  ((List.range ((entries.map (·.id)).foldl max 0 + 1)).map (firstName? chosen)).toArray

section Tables

variable {entries chosen : List Entry} (hchosen : ∀ entry ∈ chosen, entry ∈ entries)
include hchosen

theorem mem_entriesOf_tableOf {entry : Entry} :
    entry ∈ entriesOf (tableOf entries chosen) ↔
      1 ≤ entry.id ∧ firstName? chosen entry.id = some entry.name := by
  rw [mem_entriesOf, tableOf, name?_firstName? hchosen]

theorem firstName?_entriesOf (hpos : ∀ entry ∈ entries, 1 ≤ entry.id) :
    firstName? (entriesOf (tableOf entries chosen)) = firstName? chosen := by
  funext id
  refine Option.ext fun name => ?_
  rw [firstName?_eq_some_iff_mem (nodup_entriesOf _), mem_entriesOf_tableOf hchosen]
  exact and_iff_right_of_imp fun hname => hpos _ (hchosen _ (mem_of_firstName? hname))

end Tables

theorem mem_filter_of_mem_entriesOf {entries : List Entry} {sort : Entry → Bool} {entry : Entry}
    (h : entry ∈ entriesOf (tableOf entries (entries.filter sort))) :
    entry ∈ entries.filter sort := by
  rw [mem_entriesOf_tableOf fun _ hmem => (List.mem_filter.mp hmem).1] at h
  exact mem_of_firstName? h.2

theorem isLiteral_of_mem_literals {entries : List Entry} :
    ∀ entry ∈ entriesOf (ofEntries entries).literals, entry ∈ entries ∧ entry.isLiteral = true :=
  fun _ hentry => List.mem_filter.mp (mem_filter_of_mem_entriesOf hentry)

theorem not_isLiteral_of_mem_symbols {entries : List Entry} :
    ∀ entry ∈ entriesOf (ofEntries entries).symbols,
      entry ∈ entries ∧ (!entry.isLiteral) = true :=
  fun _ hentry => List.mem_filter.mp (mem_filter_of_mem_entriesOf hentry)

theorem filter_entries_literal (entries : List Entry) :
    (ofEntries entries).entries.filter (·.isLiteral) =
      entriesOf (ofEntries entries).literals := by
  have hsymbols : (entriesOf (ofEntries entries).symbols).filter (·.isLiteral) = [] :=
    List.filter_eq_nil_iff.mpr fun entry hentry => by
      simpa using (not_isLiteral_of_mem_symbols entry hentry).2
  rw [entries_eq, List.filter_append, hsymbols, List.nil_append]
  exact List.filter_eq_self.mpr fun entry hentry => (isLiteral_of_mem_literals entry hentry).2

theorem filter_entries_symbol (entries : List Entry) :
    (ofEntries entries).entries.filter (!·.isLiteral) =
      entriesOf (ofEntries entries).symbols := by
  have hliterals : (entriesOf (ofEntries entries).literals).filter (!·.isLiteral) = [] :=
    List.filter_eq_nil_iff.mpr fun entry hentry => by
      simpa using (isLiteral_of_mem_literals entry hentry).2
  rw [entries_eq, List.filter_append, hliterals, List.append_nil]
  exact List.filter_eq_self.mpr fun entry hentry => (not_isLiteral_of_mem_symbols entry hentry).2

theorem mem_of_mem_entries {entries : List Entry} {entry : Entry}
    (h : entry ∈ (ofEntries entries).entries) : entry ∈ entries := by
  rw [entries_eq, List.mem_append] at h
  rcases h with h | h
  · exact (not_isLiteral_of_mem_symbols entry h).1
  · exact (isLiteral_of_mem_literals entry h).1

/-- No number is lost: of the entries for it, one is in a table. -/
theorem exists_mem_entries {entries : List Entry} {entry : Entry} (h : entry ∈ entries)
    (hpos : 1 ≤ entry.id) : ∃ kept ∈ (ofEntries entries).entries, kept.id = entry.id := by
  have hkept : ∀ sort : Entry → Bool, sort entry = true →
      ∃ kept ∈ entriesOf (tableOf entries (entries.filter sort)), kept.id = entry.id := by
    intro sort hsort
    obtain ⟨name, hname⟩ := exists_firstName? (List.mem_filter.mpr ⟨h, hsort⟩)
    exact ⟨⟨name, entry.id⟩, (mem_entriesOf_tableOf fun _ hmem => (List.mem_filter.mp hmem).1).mpr
      ⟨hpos, hname⟩, rfl⟩
  rw [entries_eq]
  cases hliteral : entry.isLiteral with
  | true =>
      obtain ⟨kept, hmem, hid⟩ := hkept (·.isLiteral) hliteral
      exact ⟨kept, List.mem_append_right _ hmem, hid⟩
  | false =>
      obtain ⟨kept, hmem, hid⟩ := hkept (!·.isLiteral) (by simp [hliteral])
      exact ⟨kept, List.mem_append_left _ hmem, hid⟩

theorem foldl_max_congr {xs ys : List Nat} (h : ∀ n, n ∈ xs ↔ n ∈ ys) :
    xs.foldl max 0 = ys.foldl max 0 := by
  have hle : ∀ {xs ys : List Nat}, (∀ n ∈ xs, n ∈ ys) → xs.foldl max 0 ≤ ys.foldl max 0 := by
    intro xs ys hsub
    rw [List.foldl_max, List.foldl_max]
    cases hmax : xs.max? with
    | none => simp
    | some greatest =>
        have hmem := hsub greatest (List.max?_eq_some_iff.mp hmax).1
        have hbound := List.le_max?_getD_of_mem (k := 0) hmem
        simpa using hbound
  exact Nat.le_antisymm (hle fun n => (h n).mp) (hle fun n => (h n).mpr)

/-- The entries that a vocabulary keeps give the vocabulary again, in every order. -/
theorem ofEntries_perm {entries printed : List Entry} (hpos : ∀ entry ∈ entries, 1 ≤ entry.id)
    (h : printed.Perm (ofEntries entries).entries) : ofEntries printed = ofEntries entries := by
  have hsort : ∀ (sort : Entry → Bool) (table : NameTable),
      (ofEntries entries).entries.filter sort = entriesOf table →
      table = tableOf entries (entries.filter sort) →
      firstName? (printed.filter sort) = firstName? (entries.filter sort) := by
    intro sort table hfilter htable
    have hperm := h.filter sort
    rw [hfilter] at hperm
    rw [firstName?_perm hperm (nodup_entriesOf table), htable]
    exact firstName?_entriesOf (fun _ hmem => (List.mem_filter.mp hmem).1) hpos
  have hliterals := hsort (·.isLiteral) _ (filter_entries_literal entries) rfl
  have hsymbols := hsort (!·.isLiteral) _ (filter_entries_symbol entries) rfl
  have hids : ∀ n, n ∈ printed.map (·.id) ↔ n ∈ entries.map (·.id) := by
    intro n
    simp only [List.mem_map]
    constructor
    · rintro ⟨entry, hentry, rfl⟩
      exact ⟨entry, mem_of_mem_entries (h.mem_iff.mp hentry), rfl⟩
    · rintro ⟨entry, hentry, rfl⟩
      obtain ⟨kept, hkept, hid⟩ := exists_mem_entries hentry (hpos entry hentry)
      exact ⟨kept, h.mem_iff.mpr hkept, hid⟩
  rw [ofEntries, ofEntries, foldl_max_congr hids, hliterals, hsymbols]

/-- A vocabulary that was read from a listing is read again, as it is, from the listing of
its names, in whatever order they are listed. -/
theorem ofListing_reprinted {text : String} {vocabulary : Vocabulary}
    (h : ofListing text = .ok vocabulary) {printed : List Entry}
    (hprinted : printed.Perm vocabulary.entries) :
    ofListing (printListing printed) = .ok vocabulary := by
  cases hread : readEntries ((Text.lines text.toList).zipIdx 1) with
  | error fault =>
      rw [ofListing, Text.numberedLines, hread] at h
      cases h
  | ok entries =>
      rw [ofListing, Text.numberedLines, hread] at h
      obtain rfl := Except.ok.inj h
      have hentries := readEntries_of_wellFormed (wellFormed_of_readEntries hread) 1
      have hprintable : ∀ entry ∈ entries, entry.Printable := by
        intro entry hentry
        rw [← Except.ok.inj (hentries.symm.trans hread)] at hentry
        obtain ⟨line, hline, hof⟩ := List.mem_filterMap.mp hentry
        exact Entry.printable_of_ofLine? hline hof
      have hmem : ∀ entry ∈ printed, entry ∈ entries := fun entry hentry =>
        mem_of_mem_entries (hprinted.mem_iff.mp hentry)
      rw [ofListing_printListing fun entry hentry => hprintable entry (hmem entry hentry),
        ofEntries_perm (fun entry hentry => (hprintable entry hentry).pos) hprinted]

/-- A name with an equals sign in it and a blank at its end, a number with a literal name
and a symbol, a second literal name for it that does not count, and a blank line. -/
theorem ofListing_reprinted_backwards :
    ∃ vocabulary, ofListing "'<=' =3\n\nA=1\n'x'=3\nB=٠3" = .ok vocabulary ∧
      vocabulary.entries = [⟨"A", 1⟩, ⟨"B", 3⟩, ⟨"'<=' ", 3⟩] ∧
      printListing vocabulary.entries.reverse = "'<=' =3\nB=3\nA=1" ∧
      ofListing (printListing vocabulary.entries.reverse) = .ok vocabulary := by
  have hread : readEntries (Text.numberedLines "'<=' =3\n\nA=1\n'x'=3\nB=٠3".toList) =
      .ok [⟨"'<=' ", 3⟩, ⟨"A", 1⟩, ⟨"'x'", 3⟩, ⟨"B", 3⟩] := by rfl
  have hof : ofListing "'<=' =3\n\nA=1\n'x'=3\nB=٠3" =
      .ok (ofEntries [⟨"'<=' ", 3⟩, ⟨"A", 1⟩, ⟨"'x'", 3⟩, ⟨"B", 3⟩]) := by
    rw [ofListing, hread]
  refine ⟨_, hof, by decide +kernel, by decide +kernel, ?_⟩
  exact ofListing_reprinted hof (List.reverse_perm _)

end Vocabulary

end SolidityLint
