import Mathlib.Data.List.Count
import SolidityLint.Fixture.Expectation
import SolidityLint.Proofs.TextPieces

/-!
# Sources put together

A source is read line by line, and of a line nothing matters but its text; the number is only
written down (`ofLine_cases`). So a source that is put behind another one is read as before,
with greater numbers, provided that the lines of the whole are the lines of the two. That is
so behind a line feed. Other breaks do not separate in this way: a carriage return at the end
of the first source and a line feed at the beginning of the second are one break. Behind a line
feed there is nothing that could go together with it, and in front of it a carriage return
belongs to the first source with or without the second.

The numbers of issues and of warnings are then those of two sorts of lines, in order. No line is
of both sorts, and the lines of either sort are those with the opening of a comment in them.
-/

namespace SolidityLint

/-- The issue with a number of lines put in front of its text. -/
def Issue.moveDown (count : Nat) (issue : Issue) : Issue :=
  { issue with line := issue.line + count }

/-- The event with a number of lines put in front of the text that it is about. -/
def Event.moveDown (count : Nat) : Event → Event
  | .malformedExpectation line comment => .malformedExpectation (line + count) comment
  | event => event

/-- The line of a malformed comment. -/
def Event.warnedLine? : Event → Option Nat
  | .malformedExpectation line _ => some line
  | _ => none

namespace Expectation

/-- What a line can lead to. The number has no part in it but to be written down. -/
theorem ofLine_cases (line : List Char) :
    (¬ opening <:+: line ∧ ∀ number, ofLine line number = ⟨none, []⟩) ∨
    (opening <:+: line ∧ ∃ message, ∀ number, ofLine line number = ⟨some ⟨number, message⟩, []⟩) ∨
    (opening <:+: line ∧ ∃ comment, ∀ number,
      ofLine line number = ⟨none, [.malformedExpectation number comment]⟩) := by
  cases hfound : Text.fromFirst? opening line with
  | none =>
      refine .inl ⟨Text.fromFirst?_eq_none_iff.mp hfound, fun number => ?_⟩
      rw [ofLine, hfound]
      rfl
  | some rest =>
      have hopening : opening <:+: line := by
        by_contra hno
        rw [Text.fromFirst?_eq_none_iff.mpr hno] at hfound
        cases hfound
      refine .inr ?_
      by_cases hcomment : isComment (Text.trimEnd rest) = true
      · refine .inl ⟨hopening, String.ofList (body (Text.trimEnd rest)), fun number => ?_⟩
        simp only [ofLine, hfound, if_pos hcomment]
        rfl
      · refine .inr ⟨hopening, String.ofList (Text.trimEnd rest), fun number => ?_⟩
        simp only [ofLine, hfound, if_neg hcomment]
        rfl

theorem ofLines_cons (line : List Char) (number : Nat) (rest : List (List Char × Nat)) :
    ofLines ((line, number) :: rest) =
      ⟨(ofLine line number).value.toList ++ (ofLines rest).value,
        (ofLine line number).events ++ (ofLines rest).events⟩ := by
  refine Traced.ext rfl ?_
  rw [ofLines, Traced.events_bind, Traced.events_bind, Traced.events_pure, List.append_nil]

theorem ofLines_append (front rest : List (List Char × Nat)) :
    ofLines (front ++ rest) =
      ⟨(ofLines front).value ++ (ofLines rest).value,
        (ofLines front).events ++ (ofLines rest).events⟩ := by
  induction front with
  | nil => rfl
  | cons line front ih =>
      rw [List.cons_append, ofLines_cons, ofLines_cons, ih, List.append_assoc, List.append_assoc]

theorem ofLines_moveDown (lines : List (List Char)) (start count : Nat) :
    ofLines (lines.zipIdx (start + count)) =
      ⟨(ofLines (lines.zipIdx start)).value.map (Issue.moveDown count),
        (ofLines (lines.zipIdx start)).events.map (Event.moveDown count)⟩ := by
  induction lines generalizing start with
  | nil => rfl
  | cons line lines ih =>
      rw [List.zipIdx_cons, List.zipIdx_cons, ofLines_cons, ofLines_cons, Nat.add_right_comm, ih]
      rcases ofLine_cases line with ⟨-, h⟩ | ⟨-, message, h⟩ | ⟨-, comment, h⟩
      · simp [h]
      · simp [h, Issue.moveDown]
      · simp [h, Event.moveDown]

/-! ## Where issues and warnings come from -/

/-- Whether a line asks for an issue. -/
def asks (line : List Char) : Bool := (ofLine line 0).value.isSome

/-- Whether a line has a malformed comment. -/
def warns (line : List Char) : Bool := !(ofLine line 0).events.isEmpty

/-- The numbers of the lines of a sort. -/
def numbersOf (p : List Char → Bool) (numbered : List (List Char × Nat)) : List Nat :=
  (numbered.filter fun line => p line.1).map (·.2)

theorem map_line_ofLines (numbered : List (List Char × Nat)) :
    (ofLines numbered).value.map (·.line) = (numbersOf asks numbered).map Int.ofNat := by
  induction numbered with
  | nil => rfl
  | cons line rest ih =>
      obtain ⟨line, number⟩ := line
      rw [ofLines_cons, List.map_append, ih]
      rcases ofLine_cases line with ⟨-, h⟩ | ⟨-, message, h⟩ | ⟨-, comment, h⟩
      · simp [numbersOf, asks, h]
      · simp [numbersOf, asks, h]
      · simp [numbersOf, asks, h]

theorem map_warnedLine?_ofLines (numbered : List (List Char × Nat)) :
    (ofLines numbered).events.map Event.warnedLine? = (numbersOf warns numbered).map some := by
  induction numbered with
  | nil => rfl
  | cons line rest ih =>
      obtain ⟨line, number⟩ := line
      rw [ofLines_cons, List.map_append, ih]
      rcases ofLine_cases line with ⟨-, h⟩ | ⟨-, message, h⟩ | ⟨-, comment, h⟩
      · simp [numbersOf, warns, h]
      · simp [numbersOf, warns, h]
      · simp [numbersOf, warns, h, Event.warnedLine?]

theorem asks_add_warns (line : List Char) :
    (asks line).toNat + (warns line).toNat = if opening <:+: line then 1 else 0 := by
  rcases ofLine_cases line with ⟨hopening, h⟩ | ⟨hopening, message, h⟩ | ⟨hopening, comment, h⟩
  · simp [asks, warns, h, hopening]
  · simp [asks, warns, h, hopening]
  · simp [asks, warns, h, hopening]

section Numbers

variable (p : List Char → Bool) (cs : List Char)

theorem numbersOf_sublist :
    (numbersOf p (Text.numberedLines cs)).Sublist (List.range' 1 (Text.lines cs).length) := by
  rw [← List.zipIdx_map_snd]
  exact List.filter_sublist.map _

theorem pairwise_numbersOf : (numbersOf p (Text.numberedLines cs)).Pairwise (· < ·) :=
  List.Pairwise.sublist (numbersOf_sublist p cs) List.pairwise_lt_range'

variable {p cs}

theorem le_of_mem_numbersOf {number : Nat} (h : number ∈ numbersOf p (Text.numberedLines cs)) :
    1 ≤ number ∧ number ≤ (Text.lines cs).length := by
  have hmem := List.mem_range'_1.mp ((numbersOf_sublist p cs).subset h)
  omega

theorem mem_numbersOf_iff {k : Nat} {line : List Char} (h : (Text.lines cs)[k]? = some line) :
    k + 1 ∈ numbersOf p (Text.numberedLines cs) ↔ p line = true := by
  rw [numbersOf, List.mem_map]
  constructor
  · rintro ⟨⟨other, number⟩, hmem, rfl⟩
    obtain ⟨hother, hp⟩ := List.mem_filter.mp hmem
    obtain ⟨-, hat⟩ := List.mk_mem_zipIdx_iff_le_and_getElem?_sub.mp hother
    cases h.symm.trans hat
    exact hp
  · intro hp
    have hline : (line, k + 1) ∈ Text.numberedLines cs :=
      List.mk_mem_zipIdx_iff_le_and_getElem?_sub.mpr ⟨Nat.le_add_left 1 k, h⟩
    exact ⟨(line, k + 1), List.mem_filter.mpr ⟨hline, hp⟩, rfl⟩

theorem count_numbersOf {k : Nat} {line : List Char} (h : (Text.lines cs)[k]? = some line) :
    (numbersOf p (Text.numberedLines cs)).count (k + 1) = (p line).toNat := by
  have hnodup : (numbersOf p (Text.numberedLines cs)).Nodup :=
    (pairwise_numbersOf p cs).imp Nat.ne_of_lt
  rw [hnodup.count]
  cases hp : p line with
  | true => exact if_pos ((mem_numbersOf_iff h).mpr hp)
  | false => exact if_neg (mt (mem_numbersOf_iff h).mp (by simp [hp]))

end Numbers

/-- Issues and warnings that the lines of a text account for. -/
structure Accounted (cs : List Char) (found : Traced (List Issue)) : Prop where
  issues_increase : (found.value.map (·.line)).Pairwise (· < ·)
  issue_bounds : ∀ issue ∈ found.value, 1 ≤ issue.line ∧ issue.line ≤ (Text.lines cs).length
  warnings_increase : (found.events.filterMap Event.warnedLine?).Pairwise (· < ·)
  warning_bounds : ∀ event ∈ found.events, ∃ number,
    event.warnedLine? = some number ∧ 1 ≤ number ∧ number ≤ (Text.lines cs).length
  one_each : ∀ (k : Nat) (line : List Char), (Text.lines cs)[k]? = some line →
    (found.value.map (·.line)).count ((k + 1 : Nat) : Int) +
      (found.events.map Event.warnedLine?).count (some (k + 1)) =
        if opening <:+: line then 1 else 0

theorem accounted_collect (source : String) : Accounted source.toList (collect source) := by
  have hissues := map_line_ofLines (Text.numberedLines source.toList)
  have hwarnings := map_warnedLine?_ofLines (Text.numberedLines source.toList)
  rw [← collect] at hissues hwarnings
  refine ⟨?_, fun issue hissue => ?_, ?_, fun event hevent => ?_, fun k line hline => ?_⟩
  · rw [hissues, List.pairwise_map]
    exact (pairwise_numbersOf asks source.toList).imp Int.ofNat_lt.mpr
  · have hmem : issue.line ∈ (numbersOf asks (Text.numberedLines source.toList)).map Int.ofNat :=
      hissues ▸ List.mem_map_of_mem hissue
    obtain ⟨number, hnumber, hline⟩ := List.mem_map.mp hmem
    obtain ⟨hone, hmax⟩ := le_of_mem_numbersOf hnumber
    rw [← hline]
    exact ⟨Int.ofNat_le.mpr hone, Int.ofNat_le.mpr hmax⟩
  · have hnumbers : (collect source).events.filterMap Event.warnedLine? =
        numbersOf warns (Text.numberedLines source.toList) := by
      rw [← Function.id_comp Event.warnedLine?, ← List.filterMap_map, hwarnings]
      simp
    rw [hnumbers]
    exact pairwise_numbersOf warns source.toList
  · have hmem : event.warnedLine? ∈
        (numbersOf warns (Text.numberedLines source.toList)).map some :=
      hwarnings ▸ List.mem_map_of_mem hevent
    obtain ⟨number, hnumber, hline⟩ := List.mem_map.mp hmem
    exact ⟨number, hline.symm, le_of_mem_numbersOf hnumber⟩
  · rw [hissues, hwarnings, ← Int.ofNat_eq_natCast,
      List.count_map_of_injective _ _ (fun _ _ => Int.ofNat.inj),
      List.count_map_of_injective _ _ (fun _ _ => Option.some.inj), count_numbersOf hline,
      count_numbersOf hline, asks_add_warns]

/-- A source behind a line feed is read as if it stood alone, with its lines counted on from those
in front of it. And in every source, numbers of lines go up and stay within the source, and each
line leads to one issue or to one warning if it has the opening of a comment in it, and to nothing
otherwise. -/
theorem collect_composed :
    (∀ front rest : String, collect (front ++ "\n" ++ rest) =
      let count := (Text.lines (front ++ "\n").toList).length
      ⟨(collect (front ++ "\n")).value ++ (collect rest).value.map (Issue.moveDown count),
        (collect (front ++ "\n")).events ++
          (collect rest).events.map (Event.moveDown count)⟩) ∧
    ∀ source : String, Accounted source.toList (collect source) := by
  refine ⟨fun front rest => ?_, accounted_collect⟩
  have hfeed : (front ++ "\n").toList = front.toList ++ ['\n'] := String.toList_append ..
  have hall : (front ++ "\n" ++ rest).toList = front.toList ++ '\n' :: rest.toList := by
    rw [String.toList_append, hfeed, List.append_assoc]
    rfl
  simp only [collect, Text.numberedLines]
  rw [hall, Text.lines_append_feed, hfeed, List.zipIdx_append, ofLines_append, ofLines_moveDown]

end Expectation

end SolidityLint
