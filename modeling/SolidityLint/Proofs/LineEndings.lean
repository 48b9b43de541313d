import SolidityLint.Fixture.Expectation
import SolidityLint.Proofs.TextPieces
import SolidityLint.Vocabulary.Listing

/-!
# Line endings

Listings and sources are kept in files, and a file may come back from elsewhere with a
carriage return and a line feed where it had a line feed alone. The two readers must not
notice: a line counted twice would move every number below it, and a return left at the end
of a line would show in a name, a message or a fault.

Both of them know a text only by its numbered lines. These are the same if every ending is
first made a line feed (`lines_unifyEndings`), whatever the text: a pair is one break and
leaves one feed, a return without a feed behind it is a break of its own, and no other break
is touched. In a converted text every line feed has a return in front of it that was put
there, so making the endings line feeds takes the conversion back.

So a text without returns keeps its lines. In other texts the old returns stay where they
were, each of them a break of its own: if there was a line feed behind one, it now goes with
the return that was put in between (`lines_withReturns`), and there is one line more.
-/

namespace SolidityLint.Text

/-- A line feed with a carriage return in front of it, any other character alone. -/
def pairFeed (c : Char) : List Char := if c = '\n' then ['\r', '\n'] else [c]

/-- The text with a carriage return and a line feed in place of each line feed. -/
def withReturns (text : String) : String := String.ofList (text.toList.flatMap pairFeed)

/-- A line feed in place of a carriage return, any other character itself. -/
def feedOfReturn (c : Char) : Char := if c = '\r' then '\n' else c

/-- The text with a line feed in place of each carriage return, and of each pair of a carriage
return and a line feed. -/
def unifyEndings : List Char → List Char
  | [] => []
  | '\r' :: '\n' :: rest => '\n' :: unifyEndings rest
  | c :: rest => feedOfReturn c :: unifyEndings rest

theorem feedOfReturn_eq_self {c : Char} (h : c ≠ '\r') : feedOfReturn c = c := if_neg h

theorem unifyEndings_cons {c : Char} {rest : List Char}
    (hpair : ¬ (c = '\r' ∧ rest.head? = some '\n')) :
    unifyEndings (c :: rest) = feedOfReturn c :: unifyEndings rest := by
  rw [unifyEndings]
  rintro rest' rfl rfl
  exact hpair ⟨rfl, rfl⟩

/-! ## Endings made line feeds -/

theorem lines_cons_congr {c : Char} (h : c ≠ '\r') {rest other : List Char}
    (hrest : lines rest = lines other) : lines (c :: rest) = lines (c :: other) := by
  by_cases hbreak : isBreak c = true
  · rw [lines_cons_break hbreak fun hpair => h hpair.1,
      lines_cons_break hbreak fun hpair => h hpair.1, hrest]
  · have hplain : isBreak c = false := Bool.eq_false_iff.mpr hbreak
    rw [lines_cons hplain, lines_cons hplain, hrest]

/-- The sort of its endings does not matter for the lines of a text. -/
theorem lines_unifyEndings (cs : List Char) : lines (unifyEndings cs) = lines cs := by
  fun_induction unifyEndings cs with
  | case1 => rfl
  | case2 rest ih => rw [lines_feed, lines_return rfl, lines_feed, ih]
  | case3 c rest hpair ih =>
      by_cases hreturn : c = '\r'
      · subst hreturn
        have hlone : ¬ ('\r' = '\r' ∧ rest.head? = some '\n') := by
          rintro ⟨-, hfeed⟩
          obtain ⟨tail, htail⟩ := List.head?_eq_some_iff.mp hfeed
          exact hpair tail rfl htail
        rw [lines_cons_break rfl hlone, ← ih]
        exact lines_feed _
      · rw [feedOfReturn_eq_self hreturn]
        exact lines_cons_congr hreturn ih

/-! ## Line feeds made pairs -/

theorem head?_flatMap_pairFeed (cs : List Char) : (cs.flatMap pairFeed).head? ≠ some '\n' := by
  cases cs with
  | nil => simp
  | cons c rest =>
      rw [List.flatMap_cons, pairFeed]
      split
      · simp
      · simpa

/-- Taking the conversion back leaves a line feed for each return that the text had before it. -/
theorem unifyEndings_flatMap_pairFeed (cs : List Char) :
    unifyEndings (cs.flatMap pairFeed) = cs.map feedOfReturn := by
  induction cs with
  | nil => rfl
  | cons c rest ih =>
      rw [List.flatMap_cons, List.map_cons, ← ih]
      by_cases hfeed : c = '\n'
      · rw [hfeed]
        rfl
      · rw [pairFeed, if_neg hfeed, List.singleton_append]
        exact unifyEndings_cons fun hpair => head?_flatMap_pairFeed rest hpair.2

theorem lines_withReturns (text : String) :
    lines (withReturns text).toList = lines (text.toList.map feedOfReturn) :=
  calc lines (withReturns text).toList
      = lines (text.toList.flatMap pairFeed) := by rw [withReturns, String.toList_ofList]
    _ = lines (unifyEndings (text.toList.flatMap pairFeed)) := (lines_unifyEndings _).symm
    _ = lines (text.toList.map feedOfReturn) := by rw [unifyEndings_flatMap_pairFeed]

theorem map_feedOfReturn {cs : List Char} (h : '\r' ∉ cs) : cs.map feedOfReturn = cs := by
  have hself : ∀ c ∈ cs, feedOfReturn c = id c := fun c hc =>
    feedOfReturn_eq_self fun hreturn => h (hreturn ▸ hc)
  rw [List.map_congr_left hself, List.map_id]

/-- If a text has no carriage returns, putting one in front of each of its line feeds changes
neither the vocabulary or the fault that it gives as a listing, nor the issues and the warnings
that it gives as a source. -/
theorem withReturns_unnoticed {text : String} (h : '\r' ∉ text.toList) :
    Vocabulary.ofListing (withReturns text) = Vocabulary.ofListing text ∧
      Expectation.collect (withReturns text) = Expectation.collect text := by
  have hnumbered : numberedLines (withReturns text).toList = numberedLines text.toList := by
    rw [numberedLines, numberedLines, lines_withReturns, map_feedOfReturn h]
  constructor
  · rw [Vocabulary.ofListing, Vocabulary.ofListing, hnumbered]
  · rw [Expectation.collect, Expectation.collect, hnumbered]

/-- Below a blank line and a break of another sort, and with no line feed at the end: the fault,
the issue and the warning keep their numbers, and no return shows in them. -/
theorem withReturns_unnoticed_mixed :
    let text := "A=1\n\n// Noncompliant \x7b\x7bm\x7d\x7d\u2028\n// Noncompliant \x7b\x7bm"
    '\r' ∉ text.toList ∧
      Vocabulary.ofListing (withReturns text) =
        .error (.vocabulary (.noSeparator "// Noncompliant \x7b\x7bm\x7d\x7d" 3)) ∧
      Expectation.collect (withReturns text) =
        ⟨[⟨3, "m"⟩], [.malformedExpectation 5 "// Noncompliant \x7b\x7bm"]⟩ := by
  intro text
  have hfree : '\r' ∉ text.toList := by decide +kernel
  have hread : Vocabulary.readEntries (numberedLines text.toList) =
      .error (.noSeparator "// Noncompliant \x7b\x7bm\x7d\x7d" 3) := by
    unfold text
    rfl
  obtain ⟨hlisting, hsource⟩ := withReturns_unnoticed hfree
  refine ⟨hfree, hlisting.trans ?_, hsource.trans ?_⟩
  · rw [Vocabulary.ofListing, hread]
  · exact Traced.ext (by decide +kernel) (by decide +kernel)

end SolidityLint.Text
