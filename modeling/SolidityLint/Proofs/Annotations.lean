import SolidityLint.Fixture.Expectation
import SolidityLint.Proofs.TextPieces

/-!
# What is annotated is collected

A test source is annotated by writing expectation comments behind the code of its
lines. The collector gets the whole text and has to find them again, and neither the
code nor the messages are of any particular form: code may end in what looks like the
beginning of a comment, and a message may hold braces, or a whole comment.

The comment is found because its opening is `Unbordered`: it begins with two slashes
and has none after them, so code that does not hold it cannot make up an earlier one
together with its beginning. From there on nothing is searched for. The end of the
line is trimmed down to the closing braces, and the message is what is left when as
many characters as the opening and the closing have are cut off at the two ends.
-/

namespace SolidityLint

/-- A line of a source text, and what it is annotated with. -/
structure AnnotatedLine where
  code : List Char
  /-- The message of the issue that the line asks for. -/
  message : Option (List Char)
  /-- Blanks behind code and comment. -/
  trailing : List Char
  code_unbroken : Text.Unbroken code
  code_free : ¬ Expectation.opening <:+: code
  message_unbroken : ∀ m ∈ message, Text.Unbroken m
  trailing_blank : ∀ c ∈ trailing, Text.isBlank c = true
  trailing_unbroken : Text.Unbroken trailing

namespace AnnotatedLine

open Expectation

/-- The comment of a message. -/
def comment (message : List Char) : List Char := opening ++ (message ++ closing)

/-- The line as it is written. -/
def text (line : AnnotatedLine) : List Char :=
  line.code ++ ((line.message.map comment).getD [] ++ line.trailing)

/-- The issue that the line asks for, if it has this number. -/
def issue? (line : AnnotatedLine) (number : Nat) : Option Issue :=
  line.message.map fun message => ⟨number, String.ofList (Text.trim message)⟩

/-- The issues that lines ask for, in order. -/
def issues (lines : List AnnotatedLine) : List Issue :=
  (lines.zipIdx 1).filterMap fun line => line.1.issue? line.2

/-- The text of lines. -/
def source (lines : List AnnotatedLine) : String :=
  String.ofList (['\n'].intercalate (lines.map text))

end AnnotatedLine

namespace Expectation

/-! ## Comments -/

theorem unbordered_opening : Text.Unbordered opening := by
  unfold Text.Unbordered
  decide +kernel

theorem closing_eq : closing = ['\x7d', '\x7d'] := rfl

theorem isComment_comment (message : List Char) :
    isComment (AnnotatedLine.comment message) = true := by
  rw [isComment, Bool.and_eq_true, List.isPrefixOf_iff_prefix, List.isSuffixOf_iff_suffix,
    AnnotatedLine.comment]
  refine ⟨List.prefix_append opening _, ?_⟩
  rw [← List.append_assoc]
  exact List.suffix_append (opening ++ message) closing

theorem body_comment (message : List Char) :
    body (AnnotatedLine.comment message) = Text.trim message := by
  have hdrop : (AnnotatedLine.comment message).drop opening.length = message ++ closing :=
    List.drop_left
  have hcut : (message ++ closing).dropLast.dropLast = message := by
    simp [closing_eq, List.dropLast_append_of_ne_nil]
  rw [body, hdrop, hcut]

theorem trimEnd_comment (message : List Char) {trailing : List Char}
    (h : ∀ c ∈ trailing, Text.isBlank c = true) :
    Text.trimEnd (AnnotatedLine.comment message ++ trailing) = AnnotatedLine.comment message := by
  have hend : AnnotatedLine.comment message = (opening ++ (message ++ ['\x7d'])) ++ ['\x7d'] := by
    simp [AnnotatedLine.comment, closing_eq]
  rw [Text.trimEnd_append h, hend, Text.trimEnd_concat (by decide)]

/-! ## Lines -/

theorem ofLine_text (line : AnnotatedLine) (number : Nat) :
    ofLine line.text number = ⟨line.issue? number, []⟩ := by
  rw [AnnotatedLine.text, AnnotatedLine.issue?]
  cases line.message with
  | none =>
      have hopening : opening = opening.dropLast ++ ['\x7b'] := by decide +kernel
      have hfree : ¬ opening <:+: line.code ++ line.trailing := by
        have hcode := line.code_free
        rw [hopening] at hcode ⊢
        exact Text.not_infix_append (by decide) hcode line.trailing_blank
      rw [ofLine, Option.map_none, Option.getD_none, List.nil_append,
        Text.fromFirst?_eq_none_iff.mpr hfree]
      rfl
  | some message =>
      have hfound : Text.fromFirst? opening
          (line.code ++ (AnnotatedLine.comment message ++ line.trailing)) =
          some (AnnotatedLine.comment message ++ line.trailing) := by
        rw [AnnotatedLine.comment, List.append_assoc]
        exact Text.fromFirst?_append unbordered_opening line.code_free _
      rw [ofLine, Option.map_some, Option.getD_some, hfound]
      simp only [trimEnd_comment message line.trailing_blank, isComment_comment, body_comment]
      rfl

theorem ofLines_text (lines : List AnnotatedLine) (number : Nat) :
    ofLines ((lines.map AnnotatedLine.text).zipIdx number) =
      ⟨(lines.zipIdx number).filterMap fun line => line.1.issue? line.2, []⟩ := by
  induction lines generalizing number with
  | nil => rfl
  | cons line rest ih =>
      rw [List.map_cons, List.zipIdx_cons, ofLines, ofLine_text, ih, List.zipIdx_cons,
        List.filterMap_cons]
      cases line.issue? number <;> rfl

end Expectation

namespace AnnotatedLine

theorem unbroken_text (line : AnnotatedLine) : Text.Unbroken line.text := by
  have hcomment : ∀ m ∈ line.message, Text.Unbroken (comment m) := by
    intro m hm c hc
    rw [comment, List.mem_append, List.mem_append] at hc
    rcases hc with hc | hc | hc
    · have hopening : Text.Unbroken Expectation.opening := by decide +kernel
      exact hopening c hc
    · exact line.message_unbroken m hm c hc
    · have hclosing : Text.Unbroken Expectation.closing := by decide +kernel
      exact hclosing c hc
  intro c hc
  rw [text, List.mem_append, List.mem_append] at hc
  rcases hc with hc | hc | hc
  · exact line.code_unbroken c hc
  · cases hmessage : line.message with
    | none => rw [hmessage] at hc; cases hc
    | some m => rw [hmessage] at hc; exact hcomment m hmessage c hc
  · exact line.trailing_unbroken c hc

theorem issue?_eq_none {line : AnnotatedLine} (h : line.text = []) (number : Nat) :
    line.issue? number = none := by
  have hmessage : line.message = none := by
    cases hmessage : line.message with
    | none => rfl
    | some m =>
        rw [text, hmessage, List.append_eq_nil_iff, List.append_eq_nil_iff] at h
        cases h.2.1
  rw [issue?, hmessage]
  rfl

/-- From any annotated lines the collector gets exactly the messages that they were
annotated with, without blanks at the ends, on the numbers of their lines and in their
order, and it reports nothing. -/
theorem collect_source (lines : List AnnotatedLine) :
    Expectation.collect (source lines) = ⟨issues lines, []⟩ := by
  have hunbroken : ∀ written ∈ lines.map text, Text.Unbroken written := by
    intro written hwritten
    obtain ⟨line, -, rfl⟩ := List.mem_map.mp hwritten
    exact line.unbroken_text
  rw [Expectation.collect, source, String.toList_ofList, Text.numberedLines,
    Text.lines_intercalate hunbroken, issues]
  split
  · -- The line that is lost is empty, so it was not annotated.
    next hlast =>
      rw [List.getLast?_map, Option.map_eq_some_iff] at hlast
      obtain ⟨last, hlast, hempty⟩ := hlast
      obtain ⟨init, rfl⟩ := List.getLast?_eq_some_iff.mp hlast
      rw [List.map_append, List.map_singleton, List.dropLast_concat, Expectation.ofLines_text,
        List.zipIdx_append, List.filterMap_append]
      simp [issue?_eq_none hempty]
  · exact Expectation.ofLines_text lines 1

/-- The code ends in slashes, the message begins with a brace and ends as a comment
begins, and an empty line follows. -/
theorem collect_source_overlapping :
    ∃ lines : List AnnotatedLine,
      source lines = "a; //// Noncompliant \x7b\x7b \x7d// Noncompliant \x7b\x7b\x7d\x7d\t\n" ∧
        Expectation.collect (source lines) = ⟨[⟨1, "\x7d// Noncompliant \x7b\x7b"⟩], []⟩ := by
  let annotated : AnnotatedLine :=
    { code := "a; //".toList
      message := some " \x7d// Noncompliant \x7b\x7b".toList
      trailing := ['\t']
      code_unbroken := by decide +kernel
      code_free := by decide +kernel
      message_unbroken := by decide +kernel
      trailing_blank := List.forall_mem_singleton.mpr (by decide)
      trailing_unbroken := by decide }
  let empty : AnnotatedLine :=
    { code := []
      message := none
      trailing := []
      code_unbroken := List.forall_mem_nil _
      code_free := by decide +kernel
      message_unbroken := fun m hm => nomatch hm
      trailing_blank := List.forall_mem_nil _
      trailing_unbroken := List.forall_mem_nil _ }
  have hissues : issues [annotated, empty] = [⟨1, "\x7d// Noncompliant \x7b\x7b"⟩] := by
    decide +kernel
  refine ⟨[annotated, empty], by decide +kernel, ?_⟩
  rw [collect_source, hissues]

end AnnotatedLine

end SolidityLint
