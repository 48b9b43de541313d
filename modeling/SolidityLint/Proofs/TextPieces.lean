import Mathlib.Data.List.DropRight
import Mathlib.Data.List.Infix
import SolidityLint.Text.Basic

/-!
# Texts made of known pieces

Cutting a text into lines, trimming it and searching it for a piece are the three
steps with which the readers of the library take a text apart. This file says what
they find in a text of which we know how it was put together.

Lines that hold no break come back from their joined text, one by one. The only
exception is an empty line at the end: a break ends a line rather than separating two,
so nothing stands behind the last one.

A search finds the first occurrence. If the piece was put behind a text that does not
hold it, that need not be the one that was put there: the end of the text and the
beginning of the piece can make up an occurrence that starts earlier. It then ends
inside the piece, which so begins with one of its own ends. Pieces that do not are
called `Unbordered`, and are found where they were put.
-/

namespace SolidityLint.Text

/-! ## Lines -/

/-- The text has no line break in it. -/
def Unbroken (cs : List Char) : Prop := ∀ c ∈ cs, isBreak c = false

instance (cs : List Char) : Decidable (Unbroken cs) := List.decidableBAll _ cs

theorem lines_cons {c : Char} (h : isBreak c = false) (rest : List Char) :
    lines (c :: rest) = match lines rest with
      | [] => [[c]]
      | line :: more => (c :: line) :: more := by
  have hreturn : c ≠ '\r' := by
    rintro rfl
    cases h
  rw [lines]
  · rw [h]
    rfl
  · intro rest' hc
    exact absurd hc hreturn

theorem lines_cons_break {c : Char} (h : isBreak c = true) {rest : List Char}
    (hpair : ¬ (c = '\r' ∧ rest.head? = some '\n')) : lines (c :: rest) = [] :: lines rest := by
  rw [lines]
  · rw [if_pos h]
  · rintro rest' rfl rfl
    exact hpair ⟨rfl, rfl⟩

theorem lines_feed (rest : List Char) : lines ('\n' :: rest) = [] :: lines rest :=
  lines_cons_break rfl fun h => absurd h.1 (by decide)

/-- A carriage return in front of a line feed adds nothing to it. -/
theorem lines_return {rest : List Char} (h : rest.head? = some '\n') :
    lines ('\r' :: rest) = lines rest := by
  obtain ⟨rest, rfl⟩ := List.head?_eq_some_iff.mp h
  rw [lines, lines_feed]

theorem lines_ne_nil {cs : List Char} (h : cs ≠ []) : lines cs ≠ [] := by
  rw [lines.eq_def]
  split
  · exact absurd rfl h
  · exact List.cons_ne_nil _ _
  · split
    · exact List.cons_ne_nil _ _
    · split <;> exact List.cons_ne_nil _ _

/-- A line feed ends what stands in front of it and has no part in what comes behind. -/
theorem lines_append_feed (front rest : List Char) :
    lines (front ++ '\n' :: rest) = lines (front ++ ['\n']) ++ lines rest := by
  induction front with
  | nil =>
      rw [List.nil_append, List.nil_append, lines_feed, lines_feed]
      rfl
  | cons c front ih =>
      have hhead : (front ++ '\n' :: rest).head? = (front ++ ['\n']).head? := by
        cases front <;> rfl
      rw [List.cons_append, List.cons_append]
      by_cases hpair : c = '\r' ∧ (front ++ ['\n']).head? = some '\n'
      · obtain ⟨rfl, hfeed⟩ := hpair
        rw [lines_return (hhead.trans hfeed), lines_return hfeed, ih]
      · by_cases hbreak : isBreak c = true
        · rw [lines_cons_break hbreak hpair, lines_cons_break hbreak (hhead ▸ hpair), ih]
          rfl
        · -- The character goes to the first line, and there is one in front of the feed.
          have hplain : isBreak c = false := Bool.eq_false_iff.mpr hbreak
          have hne : front ++ ['\n'] ≠ [] := by simp
          obtain ⟨line, more, hlines⟩ := List.exists_cons_of_ne_nil (lines_ne_nil hne)
          rw [lines_cons hplain, lines_cons hplain, ih, hlines]
          rfl

theorem lines_append_break {line : List Char} (h : Unbroken line) (rest : List Char) :
    lines (line ++ '\n' :: rest) = line :: lines rest := by
  induction line with
  | nil => exact lines_feed rest
  | cons c line ih =>
      have htail := ih fun d hd => h d (List.mem_cons_of_mem c hd)
      rw [List.cons_append, lines_cons (h c List.mem_cons_self), htail]

theorem lines_eq_singleton {line : List Char} (h : Unbroken line) (hne : line ≠ []) :
    lines line = [line] := by
  induction line with
  | nil => exact absurd rfl hne
  | cons c line ih =>
      rw [lines_cons (h c List.mem_cons_self)]
      by_cases hline : line = []
      · rw [hline, lines]
      · rw [ih (fun d hd => h d (List.mem_cons_of_mem c hd)) hline]

/-- Joined lines come back, less an empty one at the end. -/
theorem lines_intercalate {all : List (List Char)} (h : ∀ line ∈ all, Unbroken line) :
    lines (['\n'].intercalate all) =
      if all.getLast? = some [] then all.dropLast else all := by
  induction all with
  | nil => rfl
  | cons line rest ih =>
      have hline := h line List.mem_cons_self
      cases rest with
      | nil =>
          rw [List.intercalate_singleton]
          by_cases hne : line = []
          · rw [hne]
            rfl
          · rw [lines_eq_singleton hline hne, List.getLast?_singleton, if_neg (by simpa using hne)]
      | cons next rest =>
          have hrest := ih fun other hother => h other (List.mem_cons_of_mem line hother)
          rw [List.intercalate_cons_cons, List.append_assoc, List.singleton_append,
            lines_append_break hline, hrest, List.getLast?_cons_cons, List.dropLast_cons_cons]
          split <;> rfl

theorem unbroken_of_mem_lines {cs : List Char} : ∀ line ∈ lines cs, Unbroken line := by
  fun_induction lines cs with
  | case1 => exact fun line hline => nomatch hline
  | case2 rest ih => exact List.forall_mem_cons.mpr ⟨List.forall_mem_nil _, ih⟩
  | case3 c rest _ hbreak ih => exact List.forall_mem_cons.mpr ⟨List.forall_mem_nil _, ih⟩
  | case4 c rest _ hbreak hrest ih =>
      refine List.forall_mem_singleton.mpr (List.forall_mem_singleton.mpr ?_)
      simpa using hbreak
  | case5 c rest _ hbreak line more hrest ih =>
      rw [hrest, List.forall_mem_cons] at ih
      refine List.forall_mem_cons.mpr ⟨List.forall_mem_cons.mpr ⟨?_, ih.1⟩, ih.2⟩
      simpa using hbreak

/-! ## Trimming -/

theorem trimEnd_append {tail : List Char} (h : ∀ c ∈ tail, isBlank c = true) (cs : List Char) :
    trimEnd (cs ++ tail) = trimEnd cs := by
  have hreverse : ∀ c ∈ tail.reverse, isBlank c = true := fun c hc =>
    h c (List.mem_reverse.mp hc)
  rw [trimEnd, dropEndWhile, List.reverse_append, List.dropWhile_append_of_pos hreverse]
  rfl

theorem trimEnd_concat {c : Char} (h : isBlank c = false) (cs : List Char) :
    trimEnd (cs ++ [c]) = cs ++ [c] :=
  List.rdropWhile_concat_neg isBlank cs c (by simp [h])

theorem trim_eq_self {c d : Char} {cs : List Char} (hc : isBlank c = false)
    (hd : isBlank d = false) : trim (c :: cs ++ [d]) = c :: cs ++ [d] := by
  have hhead : (c :: cs ++ [d]).dropWhile isBlank = c :: cs ++ [d] := by
    rw [List.cons_append, List.dropWhile_cons_of_neg (by simp [hc])]
  rw [trim, hhead, trimEnd_concat hd]

theorem trim_sublist (cs : List Char) : (trim cs).Sublist cs :=
  (List.rdropWhile_prefix isBlank _).sublist.trans (List.dropWhile_sublist isBlank)

theorem isBlank_of_trim_eq_cons {cs rest : List Char} {c : Char} (h : trim cs = c :: rest) :
    isBlank c = false := by
  have hprefix : c :: rest <+: cs.dropWhile isBlank :=
    h ▸ List.rdropWhile_prefix isBlank (cs.dropWhile isBlank)
  obtain ⟨tail, htail⟩ := hprefix
  have hhead := List.head?_dropWhile_not isBlank cs
  rw [← htail] at hhead
  simpa using hhead

/-! ## Occurrences -/

/-- No end of the piece, but the whole of it, is also a beginning of it. -/
def Unbordered (piece : List Char) : Prop :=
  ∀ tail ∈ piece.tails, tail ≠ [] → tail <+: piece → tail = piece

theorem fromFirst?_eq_none_iff {piece cs : List Char} :
    fromFirst? piece cs = none ↔ ¬ piece <:+: cs := by
  induction cs with
  | nil => simp [fromFirst?]
  | cons c cs ih =>
      rw [List.infix_cons_iff, not_or, ← ih, ← List.isPrefixOf_iff_prefix, fromFirst?]
      split
      · next hprefix => exact iff_of_false (fun h => nomatch h) fun h => h.1 hprefix
      · next hno => exact (and_iff_right hno).symm

/-- An occurrence that begins before the piece that was put there would end inside it. -/
theorem not_prefix_append {piece before : List Char} (hpiece : Unbordered piece)
    (hne : before ≠ []) (hfree : ¬ piece <:+: before) (rest : List Char) :
    ¬ piece <+: before ++ (piece ++ rest) := by
  intro hprefix
  rcases List.prefix_or_prefix_of_prefix hprefix (List.prefix_append before _) with hin | hout
  · exact hfree hin.isInfix
  · obtain ⟨tail, htail⟩ := hout
    have hlength : before.length + tail.length = piece.length := by
      rw [← List.length_append, htail]
    have hpos : 0 < before.length := List.length_pos_iff.mpr hne
    have hbegin : tail <+: piece ++ rest := by
      rw [← htail] at hprefix
      exact (List.prefix_append_right_inj before).mp (htail ▸ hprefix)
    have hborder : tail <+: piece :=
      List.prefix_of_prefix_length_le hbegin (List.prefix_append piece rest) (by omega)
    have hsuffix : tail ∈ piece.tails := (List.mem_tails tail piece).mpr ⟨before, htail⟩
    by_cases hnil : tail = []
    · rw [hnil, List.append_nil] at htail
      exact hfree (htail ▸ List.infix_rfl)
    · have hwhole := congrArg List.length (hpiece tail hsuffix hnil hborder)
      omega

/-- A piece without a border is found where it was put. -/
theorem fromFirst?_append {piece before : List Char} (hpiece : Unbordered piece)
    (hfree : ¬ piece <:+: before) (rest : List Char) :
    fromFirst? piece (before ++ (piece ++ rest)) = some (piece ++ rest) := by
  induction before with
  | nil =>
      have hprefix : piece.isPrefixOf (piece ++ rest) = true :=
        List.isPrefixOf_iff_prefix.mpr (List.prefix_append piece rest)
      have hne : piece ≠ [] := fun hnil => hfree (hnil ▸ List.nil_infix)
      obtain ⟨c, cs, rfl⟩ := List.exists_cons_of_ne_nil hne
      rw [List.nil_append, List.cons_append, fromFirst?, ← List.cons_append, if_pos hprefix]
  | cons c before ih =>
      have hno := not_prefix_append hpiece (List.cons_ne_nil c before) hfree rest
      have hfree' : ¬ piece <:+: before := fun h => hfree (List.infix_cons h)
      rw [← List.isPrefixOf_iff_prefix] at hno
      rw [List.cons_append, fromFirst?, ← List.cons_append, if_neg hno, ih hfree']

/-- Blanks behind a text complete no piece that ends in another character. -/
theorem not_infix_append {piece cs tail : List Char} {last : Char} (hlast : isBlank last = false)
    (hfree : ¬ piece ++ [last] <:+: cs) (htail : ∀ c ∈ tail, isBlank c = true) :
    ¬ piece ++ [last] <:+: cs ++ tail := by
  rintro ⟨before, after, heq⟩
  rcases List.append_eq_append_iff.mp heq with ⟨more, hcs, -⟩ | ⟨excess, hbefore, hsplit⟩
  · exact hfree ⟨before, more, hcs.symm⟩
  · -- The occurrence reaches into the blanks by `excess`, which ends as the piece does.
    rcases List.eq_nil_or_concat excess with hnil | ⟨init, c, rfl⟩
    · rw [hnil, List.append_nil] at hbefore
      exact hfree ⟨before, [], by rw [List.append_nil, hbefore]⟩
    · rw [List.concat_eq_append, ← List.append_assoc, ← List.append_assoc] at hbefore
      obtain rfl : last = c := List.singleton_inj.mp (List.append_inj_right' hbefore rfl)
      have hblank := htail last (by rw [hsplit]; simp)
      rw [hlast] at hblank
      cases hblank

end SolidityLint.Text
