import SolidityLint.Proofs.DeclaredMutability

/-!
# Declared visibility

There are several ways to ask what visibility a modifier list declares. One goes through the
keywords in a fixed order and answers the first that the list has. One asks whether the list has
none of them, one whether it has none or one of two, and the summary of a function tells from the
first answer alone whether the function is open. A list may have any of the keywords, each of them
any number of times, and a vocabulary need not know all of them.

All answers are decided by the keywords that the list has, taken in the order in which they are
looked for (`visibilities`). That the first of these decides as much as all of them do is due to
that order: the keywords that leave a function open come before those that do not
(`pairwise_declarable`). So a list that has one of the former is never read as one of the latter.
-/

namespace SolidityLint

/-! ## Keywords in order -/

namespace Visibility

theorem isOpen_iff {v : Visibility} :
    v.isOpen = true ↔ v = .byDefault ∨ v = .publicly ∨ v = .externally := by
  simp only [isOpen, Bool.or_eq_true, decide_eq_true_eq, or_assoc]

theorem pairwise_declarable : declarable.Pairwise fun v w => w.isOpen = true → v.isOpen = true := by
  decide

/-- A list is read as the first of its keywords. -/
def first (keywords : List Visibility) : Visibility := keywords.head?.getD .byDefault

variable {keywords : List Visibility} (h : keywords.Sublist declarable)

include h

theorem first_eq_byDefault_iff : first keywords = .byDefault ↔ keywords = [] := by
  cases keywords with
  | nil => exact iff_of_true rfl rfl
  | cons v rest =>
      refine iff_of_false (fun hv => ?_) (List.cons_ne_nil v rest)
      have hmem : v ∈ declarable := h.subset List.mem_cons_self
      rw [show v = byDefault from hv] at hmem
      exact absurd hmem (by decide)

theorem isOpen_first_iff :
    (first keywords).isOpen = true ↔ keywords = [] ∨ ∃ v ∈ keywords, v.isOpen = true := by
  cases keywords with
  | nil => exact iff_of_true rfl (.inl rfl)
  | cons v rest =>
      have hrest := (List.pairwise_cons.mp (pairwise_declarable.sublist h)).1
      constructor
      · intro hv
        exact .inr ⟨v, List.mem_cons_self, hv⟩
      · rintro (hnil | ⟨w, hw, hopen⟩)
        · cases hnil
        · rcases List.mem_cons.mp hw with rfl | hw
          · exact hopen
          · exact hrest w hw hopen

theorem exists_isOpen_iff :
    (∃ v ∈ keywords, v.isOpen = true) ↔ publicly ∈ keywords ∨ externally ∈ keywords := by
  constructor
  · rintro ⟨v, hv, hopen⟩
    rcases isOpen_iff.mp hopen with rfl | rfl | rfl
    · exact absurd (h.subset hv) (by decide)
    · exact .inl hv
    · exact .inr hv
  · rintro (hv | hv)
    · exact ⟨_, hv, rfl⟩
    · exact ⟨_, hv, rfl⟩

end Visibility

open Visibility

/-! ## Modifier lists -/

namespace Forest

variable (forest : Forest) (vocabulary : Vocabulary)

/-- The visibility keywords that a modifier list has. -/
def visibilities (modifiers : Option NodeId) : List Visibility :=
  declarable.filter fun v => (forest.hasTerminal vocabulary modifiers v.literal).value

theorem visibilities_sublist (modifiers : Option NodeId) :
    (forest.visibilities vocabulary modifiers).Sublist declarable :=
  List.filter_sublist

theorem mem_visibilities {modifiers : Option NodeId} {v : Visibility} (hv : v ∈ declarable) :
    v ∈ forest.visibilities vocabulary modifiers ↔
      (forest.hasTerminal vocabulary modifiers v.literal).value = true :=
  List.mem_filter.trans (and_iff_right hv)

theorem value_visibility (modifiers : Option NodeId) :
    (forest.visibility vocabulary modifiers).value =
      first (forest.visibilities vocabulary modifiers) := by
  rw [visibility, Traced.value_bind, Traced.value_find?, first, visibilities, List.head?_filter]
  rfl

theorem value_hasNoVisibility (modifiers : Option NodeId) :
    (forest.hasNoVisibility vocabulary modifiers).value = true ↔
      forest.visibilities vocabulary modifiers = [] := by
  rw [hasNoVisibility, Traced.value_bind, Traced.value_any, Traced.value_pure, visibilities,
    List.filter_eq_nil_iff, Bool.not_eq_true', List.any_eq_false]

theorem value_isOpenToCalls (modifiers : Option NodeId) :
    (forest.isOpenToCalls vocabulary modifiers).value = true ↔
      forest.visibilities vocabulary modifiers = [] ∨
        publicly ∈ forest.visibilities vocabulary modifiers ∨
        externally ∈ forest.visibilities vocabulary modifiers := by
  have hvalue : (forest.isOpenToCalls vocabulary modifiers).value =
      ((forest.hasNoVisibility vocabulary modifiers).value ||
        ((forest.hasTerminal vocabulary modifiers publicly.literal).value ||
          (forest.hasTerminal vocabulary modifiers externally.literal).value)) := by
    rw [isOpenToCalls, Traced.value_bind]
    cases (forest.hasNoVisibility vocabulary modifiers).value with
    | true => rfl
    | false =>
        rw [Bool.false_or, if_neg Bool.false_ne_true, Traced.value_bind]
        cases (forest.hasTerminal vocabulary modifiers publicly.literal).value <;> rfl
  rw [hvalue, Bool.or_eq_true, Bool.or_eq_true, value_hasNoVisibility,
    mem_visibilities forest vocabulary (by decide), mem_visibilities forest vocabulary (by decide)]

/-- What is read as open is what is open to calls. -/
theorem isOpen_visibility (modifiers : Option NodeId) :
    (forest.visibility vocabulary modifiers).value.isOpen =
      (forest.isOpenToCalls vocabulary modifiers).value := by
  have hsublist := forest.visibilities_sublist vocabulary modifiers
  rw [Bool.eq_iff_iff, value_visibility, value_isOpenToCalls, isOpen_first_iff hsublist,
    exists_isOpen_iff hsublist]

/-- An absent modifier list is read as an empty one. -/
theorem declaredVisibility_eq (modifiers : Option NodeId) :
    forest.declaredVisibility vocabulary modifiers = forest.visibility vocabulary modifiers := by
  cases modifiers with
  | none => rfl
  | some list => rfl

/-! ## Summaries -/

theorem exists_function_of_describe {node : Option NodeId} {summary : FunctionSummary}
    (h : (forest.describe vocabulary node).outcome = .ok summary) :
    ∃ n, node = some n ∧ forest.kind n = .functionDefinition := by
  cases hkind : forest.isKind node .functionDefinition with
  | false =>
      simp only [describe, Checked.outcome_bind, Checked.outcome_require, hkind] at h
      cases h
  | true =>
      cases node with
      | none => cases hkind
      | some n => exact ⟨n, rfl, beq_iff_eq.mp hkind⟩

theorem visibility_of_describe {node : Option NodeId} {summary : FunctionSummary}
    (h : (forest.describe vocabulary node).outcome = .ok summary) :
    summary.visibility = (forest.visibility vocabulary (forest.modifierList? node)).value := by
  obtain ⟨n, rfl, hkind⟩ := forest.exists_function_of_describe vocabulary h
  rw [outcome_describe forest vocabulary hkind] at h
  cases hmutability : Mutability.declare (forest.declaredKeywords vocabulary n) with
  | error fault =>
      rw [hmutability] at h
      cases h
  | ok mutability =>
      rw [hmutability] at h
      cases hname : (forest.functionName (some n)).outcome with
      | error fault =>
          rw [hname] at h
          cases h
      | ok name =>
          rw [hname] at h
          cases h
          rw [← declaredVisibility_eq]
          rfl

/-- All answers about visibility agree, for every node or none, in every forest and with every
vocabulary. No keyword is found exactly if the default is read; a list is open to calls exactly if
the default, `public` or `external` is read; and the summary of a function has the visibility that
its modifier list is read as, and is as open as that list. -/
theorem visibility_answers_agree :
    (∀ modifiers,
      ((forest.hasNoVisibility vocabulary modifiers).value = true ↔
        (forest.visibility vocabulary modifiers).value = .byDefault) ∧
      ((forest.isOpenToCalls vocabulary modifiers).value = true ↔
        (forest.visibility vocabulary modifiers).value = .byDefault ∨
          (forest.visibility vocabulary modifiers).value = .publicly ∨
          (forest.visibility vocabulary modifiers).value = .externally)) ∧
    ∀ node summary, (forest.describe vocabulary node).outcome = .ok summary →
      summary.visibility = (forest.visibility vocabulary (forest.modifierList? node)).value ∧
      summary.visibility.isOpen =
        (forest.isOpenToCalls vocabulary (forest.modifierList? node)).value := by
  refine ⟨fun modifiers => ⟨?_, ?_⟩, fun node summary h => ?_⟩
  · rw [value_hasNoVisibility, value_visibility,
      first_eq_byDefault_iff (forest.visibilities_sublist vocabulary modifiers)]
  · rw [← isOpen_visibility, isOpen_iff]
  · have hvisibility := forest.visibility_of_describe vocabulary h
    exact ⟨hvisibility, hvisibility ▸ isOpen_visibility ..⟩

/-- A function with the modifiers `internal` and `external`, and a vocabulary that knows no other
visibility. `external` comes first in the order. -/
theorem visibility_answers_agree_contradictory :
    let vocabulary := Vocabulary.ofNames [none, some "'external'", some "'internal'"] []
    let forest : Forest := ⟨#[
      { label := .rule (.ofKind .functionDefinition), children := [1] },
      { label := .rule (.ofKind .modifierList), children := [2, 3], parent := some 0 },
      { label := .token ⟨2, "internal"⟩ false, parent := some 1 },
      { label := .token ⟨1, "external"⟩ false, parent := some 1 }]⟩
    ∃ summary, (forest.describe vocabulary (some 0)).outcome = .ok summary ∧
      summary.visibility = .externally ∧ summary.visibility.isOpen = true ∧
      (forest.isOpenToCalls vocabulary (some 1)).value = true ∧
      (forest.hasNoVisibility vocabulary (some 1)).value = false := by
  intro vocabulary forest
  have hdescribe : (forest.describe vocabulary (some 0)).outcome =
      .ok (forest.summaryOf vocabulary 0 .unspecified none) := by
    rw [outcome_describe forest vocabulary rfl]
    rfl
  have hkeywords : forest.visibilities vocabulary (some 1) = [externally, internally] := by
    have hrule : forest.isRule 1 = true := rfl
    simp only [visibilities, hasTerminal, Traced.value_bind, Traced.value_pure,
      value_findTerminal hrule, Vocabulary.tokenType_eq_find?]
    decide +kernel
  have hvisibility : (forest.visibility vocabulary (some 1)).value = externally := by
    rw [value_visibility, hkeywords]
    rfl
  obtain ⟨hanswers, hsummary⟩ := visibility_answers_agree forest vocabulary
  obtain ⟨hnone, hopen⟩ := hanswers (some 1)
  obtain ⟨hdeclared, hsame⟩ := hsummary (some 0) _ hdescribe
  have hcalls := hopen.mpr (.inr (.inr hvisibility))
  refine ⟨_, hdescribe, hdeclared.trans hvisibility, hsame.trans hcalls, hcalls, ?_⟩
  rw [← Bool.not_eq_true, hnone, hvisibility]
  exact Visibility.noConfusion

end Forest

end SolidityLint
