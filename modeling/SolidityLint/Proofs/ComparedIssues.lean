import Mathlib.Data.List.Count
import SolidityLint.Fixture.Verification

/-!
# Issues compared

Issues found and issues expected are compared by taking one list away from the other, both
ways, and sorting what is left. Lists may hold an issue several times, in any order and each
a different number of times.

What is left is described without the taking away: `IsSurplus` asks for the order, and for
every issue for how often it is there. No two lists meet that, because a list in order is
known by its counts (`IsSurplus.unique`). So all laws of the comparison are laws of the
subtraction of counts. Both surpluses are empty exactly if all counts agree, which is what it
means for one list to be a permutation of the other; no count can fall short of another both
ways; and permuted lists have the same counts.
-/

namespace SolidityLint

theorem Row.readAll_map_issue (issues : List Issue) :
    Row.readAll (issues.map .issue) = .ok issues := by
  induction issues with
  | nil => rfl
  | cons issue rest ih =>
      rw [List.map_cons, readAll, ih]
      rfl

namespace Issue

/-! ## The order of issues -/

/-- An issue comes before another, or is equal to it: by line, and on one line by message,
code point by code point. -/
def Precedes (a b : Issue) : Prop :=
  a.line < b.line ∨ a.line = b.line ∧
    (a.message = b.message ∨
      List.Lex (fun c d : Char => c.toNat < d.toNat) a.message.toList b.message.toList)

theorem le_iff {a b : Issue} :
    le a b = true ↔ a.line < b.line ∨ a.line = b.line ∧ a.message ≤ b.message := by
  simp only [le, Bool.or_eq_true, Bool.and_eq_true, Bool.not_eq_true', decide_eq_true_eq,
    decide_eq_false_iff_not, beq_iff_eq, String.not_lt]

theorem le_iff_precedes {a b : Issue} : le a b = true ↔ a.Precedes b := by
  have hmessage : a.message ≤ b.message ↔ a.message = b.message ∨ a.message < b.message := by
    constructor
    · intro hle
      by_cases hlt : a.message < b.message
      · exact .inr hlt
      · exact .inl (String.le_antisymm hle (String.not_lt.mp hlt))
    · rintro (heq | hlt)
      · exact heq ▸ String.le_refl a.message
      · exact String.not_lt.mp (String.lt_asymm hlt)
  rw [le_iff, hmessage]
  rfl

theorem le_trans (a b c : Issue) (hab : le a b = true) (hbc : le b c = true) :
    le a c = true := by
  rw [le_iff] at hab hbc ⊢
  rcases hab with hab | ⟨hab, hmessage⟩
  · left
    omega
  · rcases hbc with hbc | ⟨hbc, hmessage'⟩
    · left
      omega
    · right
      exact ⟨hab.trans hbc, String.le_trans hmessage hmessage'⟩

theorem le_total (a b : Issue) : (le a b || le b a) = true := by
  rw [Bool.or_eq_true, le_iff, le_iff]
  rcases Int.lt_trichotomy a.line b.line with hlt | heq | hgt
  · exact .inl (.inl hlt)
  · rcases String.le_total a.message b.message with hmessage | hmessage
    · exact .inl (.inr ⟨heq, hmessage⟩)
    · exact .inr (.inr ⟨heq.symm, hmessage⟩)
  · exact .inr (.inl hgt)

theorem le_antisymm {a b : Issue} (hab : le a b = true) (hba : le b a = true) : a = b := by
  rw [le_iff] at hab hba
  have hline : a.line = b.line := by omega
  rcases hab with hlt | ⟨-, hmessage⟩
  · omega
  · rcases hba with hlt | ⟨-, hmessage'⟩
    · omega
    · cases a
      cases b
      rw [Issue.mk.injEq]
      exact ⟨hline, String.le_antisymm hmessage hmessage'⟩

theorem pairwise_sort (issues : List Issue) : (sort issues).Pairwise Precedes :=
  (List.pairwise_mergeSort le_trans le_total issues).imp le_iff_precedes.mp

/-! ## What one list has more of than another -/

/-- The list, in order, of what `issues` has more of than `others`: each issue as often as
there are more of it, and not at all if there are fewer. -/
structure IsSurplus (issues others surplus : List Issue) : Prop where
  sorted : surplus.Pairwise Precedes
  count_eq : ∀ issue, surplus.count issue = issues.count issue - others.count issue

theorem count_difference (issues removed : List Issue) (issue : Issue) :
    (difference issues removed).count issue = issues.count issue - removed.count issue := by
  rw [difference, ← List.diff_eq_foldl]
  exact List.count_diff issue issues removed

theorem isSurplus_sort (issues others : List Issue) :
    IsSurplus issues others (sort (difference issues others)) where
  sorted := pairwise_sort _
  count_eq issue := by
    rw [← count_difference]
    exact (List.mergeSort_perm _ le).count_eq issue

/-- A list in order is known by how often it has each issue. -/
theorem IsSurplus.unique {issues others issues' others' surplus surplus' : List Issue}
    (h : IsSurplus issues others surplus) (h' : IsSurplus issues' others' surplus')
    (hissues : issues.Perm issues') (hothers : others.Perm others') : surplus = surplus' := by
  have hperm : surplus.Perm surplus' := by
    refine List.perm_iff_count.mpr fun issue => ?_
    rw [h.count_eq, h'.count_eq, hissues.count_eq, hothers.count_eq]
  refine hperm.eq_of_pairwise ?_ h.sorted h'.sorted
  intro a b _ _ hab hba
  exact le_antisymm (le_iff_precedes.mpr hab) (le_iff_precedes.mpr hba)

theorem IsSurplus.eq_nil_iff {issues others surplus : List Issue}
    (h : IsSurplus issues others surplus) :
    surplus = [] ↔ ∀ issue, issues.count issue ≤ others.count issue := by
  rw [List.eq_nil_iff_forall_not_mem]
  refine forall_congr' fun issue => ?_
  rw [← List.count_eq_zero, h.count_eq, Nat.sub_eq_zero_iff_le]

/-- Where one list has more of an issue, the other has not. -/
theorem IsSurplus.disjoint {issues others surplus surplus' : List Issue}
    (h : IsSurplus issues others surplus) (h' : IsSurplus others issues surplus') :
    surplus.Disjoint surplus' := by
  intro issue hmem hmem'
  have hcount := List.count_pos_iff.mpr hmem
  have hcount' := List.count_pos_iff.mpr hmem'
  rw [h.count_eq] at hcount
  rw [h'.count_eq] at hcount'
  omega

theorem eq_nil_and_eq_nil_iff {expected actual missing unexpected : List Issue}
    (hmissing : IsSurplus expected actual missing)
    (hunexpected : IsSurplus actual expected unexpected) :
    (missing = [] ∧ unexpected = []) ↔ actual.Perm expected := by
  rw [hmissing.eq_nil_iff, hunexpected.eq_nil_iff, ← forall_and, List.perm_iff_count]
  refine forall_congr' fun issue => ?_
  omega

/-! ## The comparison -/

theorem outcome_verify {expected actual missing unexpected : List Issue}
    (hmissing : IsSurplus expected actual missing)
    (hunexpected : IsSurplus actual expected unexpected) :
    (verify expected actual).outcome =
      if missing = [] ∧ unexpected = [] then .ok () else .error (.mismatch missing unexpected) := by
  obtain rfl := hmissing.unique (isSurplus_sort expected actual) (.refl _) (.refl _)
  obtain rfl := hunexpected.unique (isSurplus_sort actual expected) (.refl _) (.refl _)
  simp only [verify, Bool.and_eq_true, List.isEmpty_iff]
  split <;> rfl

theorem verify_congr {expected actual expected' actual' : List Issue}
    (hexpected : expected.Perm expected') (hactual : actual.Perm actual') :
    verify expected actual = verify expected' actual' := by
  have hmissing := (isSurplus_sort expected actual).unique (isSurplus_sort expected' actual')
    hexpected hactual
  have hunexpected := (isSurplus_sort actual expected).unique (isSurplus_sort actual' expected')
    hactual hexpected
  simp only [verify, hmissing, hunexpected, hexpected.length_eq]

theorem verify_swap {expected actual missing unexpected : List Issue}
    (h : (verify expected actual).outcome = .error (.mismatch missing unexpected)) :
    (verify actual expected).outcome = .error (.mismatch unexpected missing) := by
  have hmissing := isSurplus_sort expected actual
  have hunexpected := isSurplus_sort actual expected
  rw [outcome_verify hmissing hunexpected] at h
  split at h
  · cases h
  · next hsome =>
      cases h
      rw [outcome_verify hunexpected hmissing, if_neg (mt And.symm hsome)]

/-- The comparison of issues found with issues expected is one of multisets. It passes exactly
if the lists are permutations of each other. Otherwise it reports what is missing and what was
not expected: each list in order, with every issue as often as one side has more of it than the
other, so that no issue is in both. The two lists change places with the arguments, and nothing
at all depends on the order of an argument. -/
theorem verify_exact (expected actual : List Issue) :
    verifyRows (expected.map .issue) (actual.map .issue) = verify expected actual ∧
    ((verify expected actual).outcome = .ok () ↔ actual.Perm expected) ∧
    (¬ actual.Perm expected → ∃ missing unexpected,
      (verify expected actual).outcome = .error (.mismatch missing unexpected) ∧
      IsSurplus expected actual missing ∧ IsSurplus actual expected unexpected ∧
      missing.Disjoint unexpected) ∧
    (∀ missing unexpected,
      (verify expected actual).outcome = .error (.mismatch missing unexpected) ↔
        (verify actual expected).outcome = .error (.mismatch unexpected missing)) ∧
    ∀ expected' actual', expected.Perm expected' → actual.Perm actual' →
      verify expected' actual' = verify expected actual := by
  have hmissing := isSurplus_sort expected actual
  have hunexpected := isSurplus_sort actual expected
  have hnil := eq_nil_and_eq_nil_iff hmissing hunexpected
  have houtcome := outcome_verify hmissing hunexpected
  refine ⟨?_, ?_, ?_, ?_, ?_⟩
  · rw [verifyRows, Row.readAll_map_issue, Row.readAll_map_issue]
    rfl
  · rw [houtcome, ← hnil]
    split
    · next hempty => exact iff_of_true rfl hempty
    · next hsome => exact iff_of_false (fun h => nomatch h) hsome
  · intro hperm
    rw [houtcome, if_neg (mt hnil.mp hperm)]
    exact ⟨_, _, rfl, hmissing, hunexpected, hmissing.disjoint hunexpected⟩
  · intro missing unexpected
    exact ⟨verify_swap, verify_swap⟩
  · intro expected' actual' hexpected hactual
    exact (verify_congr hexpected hactual).symm

end Issue

end SolidityLint
