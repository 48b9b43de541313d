import Mathlib.Data.List.Sublists
import SolidityLint.Proofs.DumpedDocuments
import SolidityLint.Proofs.NameIndex
import SolidityLint.Query.Function

/-!
# Declared mutability

The modifier list of a function may have any number of mutability entries, and an entry any
number of keywords. Two counts decide what they declare together: how many entries say
`payable`, and how many say `view` or `pure`. Only a count of exactly one counts, and `payable`
goes first. If one entry says `view` or `pure`, it is searched for as the first one that is
read so, and an entry is read as the first of its keywords in a fixed order with `payable` in
front. So the search comes back with that entry, or, if it says `payable` too, with nothing.

`Declared` is the rule in these terms and `declare` its computation; a list of entries, each
given by its keywords, is all that they need. The summary of a function declares what the
keywords of its entries do. Nothing in the rule depends on the order of the entries.
-/

namespace SolidityLint

/-! ## Keywords -/

namespace Mutability

/-- How many entries, each given by its keywords, say `payable`. -/
def payableCount (entries : List (List Mutability)) : Nat := entries.countP (·.contains .payable)

/-- How many entries, each given by its keywords, say `view` or `pure`. -/
def readOnlyCount (entries : List (List Mutability)) : Nat := entries.countP (·.any isReadOnly)

/-- What entries declare together. -/
inductive Declared (entries : List (List Mutability)) : Except Fault Mutability → Prop where
  | payable (hpayable : payableCount entries = 1) : Declared entries (.ok .payable)
  | unspecified (hpayable : payableCount entries ≠ 1) (hreadOnly : readOnlyCount entries ≠ 1) :
      Declared entries (.ok .unspecified)
  | view {entry : List Mutability} (hpayable : payableCount entries ≠ 1)
      (hreadOnly : readOnlyCount entries = 1) (mem : entry ∈ entries)
      (keywords : .view ∈ entry ∧ .payable ∉ entry) : Declared entries (.ok .view)
  | pure {entry : List Mutability} (hpayable : payableCount entries ≠ 1)
      (hreadOnly : readOnlyCount entries = 1) (mem : entry ∈ entries)
      (keywords : .pure ∈ entry ∧ .view ∉ entry ∧ .payable ∉ entry) : Declared entries (.ok .pure)
  | contradictory {entry : List Mutability} (hpayable : payableCount entries ≠ 1)
      (hreadOnly : readOnlyCount entries = 1) (mem : entry ∈ entries)
      (keywords : (.view ∈ entry ∨ .pure ∈ entry) ∧ .payable ∈ entry) :
      Declared entries (.error .noMutability)

theorem eq_of_countP_eq_one {α : Type} {p : α → Bool} {list : List α} {a b : α}
    (h : list.countP p = 1) (ha : a ∈ list) (hb : b ∈ list) (hpa : p a = true)
    (hpb : p b = true) : a = b := by
  obtain ⟨before, after, rfl⟩ := List.append_of_mem ha
  rw [List.countP_append, List.countP_cons, if_pos hpa] at h
  have hbefore : before.countP p = 0 := by omega
  have hafter : after.countP p = 0 := by omega
  rcases List.mem_append.mp hb with hmem | hmem
  · exact absurd hpb (List.countP_eq_zero.mp hbefore b hmem)
  · rcases List.mem_cons.mp hmem with heq | hmem
    · exact heq.symm
    · exact absurd hpb (List.countP_eq_zero.mp hafter b hmem)

/-- Where all members that a search can stop at pass a test that only one member passes, the
search finds the image of that member or nothing. -/
theorem find?_map_of_countP_eq_one {α β : Type} {p : α → Bool} {f : α → β} {q : β → Bool}
    {list : List α} {a : α} (h : list.countP p = 1) (ha : a ∈ list) (hpa : p a = true)
    (hq : ∀ b ∈ list, q (f b) = true → p b = true) :
    (list.map f).find? q = if q (f a) then some (f a) else none := by
  cases hfind : (list.map f).find? q with
  | none =>
      have hno := List.find?_eq_none.mp hfind (f a) (List.mem_map_of_mem ha)
      rw [if_neg hno]
  | some image =>
      obtain ⟨b, hb, rfl⟩ := List.mem_map.mp (List.mem_of_find?_eq_some hfind)
      have hqb := List.find?_some hfind
      obtain rfl := eq_of_countP_eq_one h ha hb hpa (hq b hb hqb)
      rw [if_pos hqb]

/-- An entry is read as the first of its keywords. -/
def first (entry : List Mutability) : Mutability := entry.head?.getD .unspecified

theorem any_isReadOnly {entry : List Mutability} :
    entry.any isReadOnly = true ↔ view ∈ entry ∨ pure ∈ entry := by
  simp only [List.any_eq_true, isReadOnly, Bool.or_eq_true, decide_eq_true_eq]
  constructor
  · rintro ⟨keyword, hmem, rfl | rfl⟩
    · exact .inl hmem
    · exact .inr hmem
  · rintro (hmem | hmem)
    · exact ⟨view, hmem, .inl rfl⟩
    · exact ⟨pure, hmem, .inr rfl⟩

/-- The keywords of an entry are looked for in a fixed order, so the first one is the one that
comes first in that order. -/
theorem first_eq {entry : List Mutability} (h : entry.Sublist declarable) :
    first entry =
      if payable ∈ entry then payable
      else if view ∈ entry then view
      else if pure ∈ entry then pure
      else unspecified := by
  have hall : ∀ entry ∈ declarable.sublists, first entry =
      if payable ∈ entry then payable
      else if view ∈ entry then view
      else if pure ∈ entry then pure
      else unspecified := by decide
  exact hall entry (List.mem_sublists.mpr h)

/-- What entries declare together, as it is computed: the two counts, and then the search for
the first entry that is read as `view` or `pure`. -/
def declare (entries : List (List Mutability)) : Except Fault Mutability :=
  if payableCount entries = 1 then .ok .payable
  else if readOnlyCount entries = 1 then
    (((entries.map first).find? isReadOnly).map Except.ok).getD (.error .noMutability)
  else .ok .unspecified

theorem isReadOnly_first {entry : List Mutability} (h : entry.Sublist declarable) :
    isReadOnly (first entry) = true ↔ (view ∈ entry ∨ pure ∈ entry) ∧ payable ∉ entry := by
  rw [first_eq h]
  by_cases hpayable : payable ∈ entry <;> by_cases hview : view ∈ entry <;>
    by_cases hpure : pure ∈ entry <;> simp [isReadOnly, hpayable, hview, hpure]

/-- The one entry that says `view` or `pure` decides, whatever the others are. -/
theorem declare_eq_of_mem {entries : List (List Mutability)}
    (h : ∀ entry ∈ entries, entry.Sublist declarable) {entry : List Mutability}
    (hpayable : payableCount entries ≠ 1) (hreadOnly : readOnlyCount entries = 1)
    (hmem : entry ∈ entries) (hkeywords : view ∈ entry ∨ pure ∈ entry) :
    declare entries =
      if payable ∈ entry then .error .noMutability
      else if view ∈ entry then .ok view
      else .ok pure := by
  have hfind : (entries.map first).find? isReadOnly =
      if isReadOnly (first entry) then some (first entry) else none := by
    refine find?_map_of_countP_eq_one hreadOnly hmem (any_isReadOnly.mpr hkeywords) ?_
    intro other hother hfirst
    exact any_isReadOnly.mpr ((isReadOnly_first (h other hother)).mp hfirst).1
  rw [declare, if_neg hpayable, if_pos hreadOnly, hfind, first_eq (h entry hmem)]
  by_cases hp : payable ∈ entry
  · rw [if_pos hp, if_pos hp]
    rfl
  · by_cases hv : view ∈ entry
    · rw [if_neg hp, if_pos hv, if_neg hp, if_pos hv]
      rfl
    · rw [if_neg hp, if_neg hv, if_pos (hkeywords.resolve_left hv), if_neg hp, if_neg hv]
      rfl

theorem declared_declare {entries : List (List Mutability)}
    (h : ∀ entry ∈ entries, entry.Sublist declarable) : Declared entries (declare entries) := by
  by_cases hpayable : payableCount entries = 1
  · rw [declare, if_pos hpayable]
    exact .payable hpayable
  · by_cases hreadOnly : readOnlyCount entries = 1
    · obtain ⟨entry, hmem, hentry⟩ : ∃ entry ∈ entries, entry.any isReadOnly = true :=
        List.countP_pos_iff.mp (Nat.lt_of_lt_of_eq Nat.zero_lt_one hreadOnly.symm)
      have hkeywords := any_isReadOnly.mp hentry
      rw [declare_eq_of_mem h hpayable hreadOnly hmem hkeywords]
      split
      · next hp => exact .contradictory hpayable hreadOnly hmem ⟨hkeywords, hp⟩
      · next hp =>
          split
          · next hv => exact .view hpayable hreadOnly hmem ⟨hv, hp⟩
          · next hv =>
              exact .pure hpayable hreadOnly hmem ⟨hkeywords.resolve_left hv, hv, hp⟩
    · rw [declare, if_neg hpayable, if_neg hreadOnly]
      exact .unspecified hpayable hreadOnly

theorem declared_iff {entries : List (List Mutability)}
    (h : ∀ entry ∈ entries, entry.Sublist declarable) {x : Except Fault Mutability} :
    Declared entries x ↔ declare entries = x := by
  refine ⟨?_, fun hx => hx ▸ declared_declare h⟩
  intro hx
  cases hx with
  | payable hpayable => rw [declare, if_pos hpayable]
  | unspecified hpayable hreadOnly => rw [declare, if_neg hpayable, if_neg hreadOnly]
  | view hpayable hreadOnly mem keywords =>
      rw [declare_eq_of_mem h hpayable hreadOnly mem (.inl keywords.1), if_neg keywords.2,
        if_pos keywords.1]
  | pure hpayable hreadOnly mem keywords =>
      rw [declare_eq_of_mem h hpayable hreadOnly mem (.inr keywords.1), if_neg keywords.2.2,
        if_neg keywords.2.1]
  | contradictory hpayable hreadOnly mem keywords =>
      rw [declare_eq_of_mem h hpayable hreadOnly mem keywords.1, if_pos keywords.2]

theorem declared_unspecified_iff {entries : List (List Mutability)} :
    Declared entries (.ok .unspecified) ↔
      payableCount entries ≠ 1 ∧ readOnlyCount entries ≠ 1 := by
  constructor
  · intro h
    cases h with
    | unspecified hpayable hreadOnly => exact ⟨hpayable, hreadOnly⟩
  · intro h
    exact .unspecified h.1 h.2

theorem Declared.perm {entries others : List (List Mutability)} {x : Except Fault Mutability}
    (h : Declared entries x) (hperm : entries.Perm others) : Declared others x := by
  have hp : payableCount entries = payableCount others := hperm.countP_eq _
  have hr : readOnlyCount entries = readOnlyCount others := hperm.countP_eq _
  cases h with
  | payable hpayable => exact .payable (hp ▸ hpayable)
  | unspecified hpayable hreadOnly => exact .unspecified (hp ▸ hpayable) (hr ▸ hreadOnly)
  | view hpayable hreadOnly mem keywords =>
      exact .view (hp ▸ hpayable) (hr ▸ hreadOnly) (hperm.mem_iff.mp mem) keywords
  | pure hpayable hreadOnly mem keywords =>
      exact .pure (hp ▸ hpayable) (hr ▸ hreadOnly) (hperm.mem_iff.mp mem) keywords
  | contradictory hpayable hreadOnly mem keywords =>
      exact .contradictory (hp ▸ hpayable) (hr ▸ hreadOnly) (hperm.mem_iff.mp mem) keywords

/-- Entries that say one keyword each leave nothing in contradiction. -/
theorem Declared.exists_ok {entries : List (List Mutability)} {x : Except Fault Mutability}
    (h : Declared entries x) (hsingle : ∀ entry ∈ entries, entry.length ≤ 1) :
    ∃ mutability, x = .ok mutability := by
  cases h with
  | payable _ => exact ⟨_, rfl⟩
  | unspecified _ _ => exact ⟨_, rfl⟩
  | view _ _ _ _ => exact ⟨_, rfl⟩
  | pure _ _ _ _ => exact ⟨_, rfl⟩
  | @contradictory entry _ _ mem keywords =>
      obtain ⟨hreadOnly, hpayable⟩ := keywords
      obtain ⟨keyword, rfl⟩ : ∃ keyword, entry = [keyword] :=
        List.length_eq_one_iff.mp
          (Nat.le_antisymm (hsingle entry mem) (List.length_pos_of_mem hpayable))
      obtain rfl := List.mem_singleton.mp hpayable
      rcases hreadOnly with hmem | hmem <;> cases List.mem_singleton.mp hmem

theorem declare_singleton {entry : List Mutability} (h : entry.Sublist declarable) :
    declare [entry] = .ok (first entry) := by
  have hall : ∀ entry ∈ declarable.sublists, declare [entry] = .ok (first entry) := by decide
  exact hall entry (List.mem_sublists.mpr h)

end Mutability

open Mutability

namespace Forest

section Entries

variable (forest : Forest) (vocabulary : Vocabulary)

/-- The keywords that a node has among its terminals. -/
def keywords (entry : NodeId) : List Mutability :=
  declarable.filter fun m => (forest.findTerminal vocabulary (some entry) m.literal).value.isSome

theorem keywords_sublist (entry : NodeId) :
    (forest.keywords vocabulary entry).Sublist declarable :=
  List.filter_sublist

theorem mem_keywords {entry : NodeId} {m : Mutability} :
    m ∈ forest.keywords vocabulary entry ↔ m ∈ declarable ∧
      (forest.findTerminal vocabulary (some entry) m.literal).value.isSome = true :=
  List.mem_filter

/-- The keywords of a rule node, by the types of its terminals. -/
theorem keywords_eq {entry : NodeId} (h : forest.isRule entry = true) :
    forest.keywords vocabulary entry = declarable.filter fun m =>
      vocabulary.tokenType m.literal != Vocabulary.invalidType &&
        (forest.terminalOfType? entry (vocabulary.tokenType m.literal)).isSome := by
  refine List.filter_congr ?_
  intro m _
  rw [value_findTerminal h]
  by_cases htype : vocabulary.tokenType m.literal = Vocabulary.invalidType
  · simp [htype]
  · simp [htype]

theorem value_mutability (entry : NodeId) :
    (forest.mutability vocabulary (some entry)).value =
      first (forest.keywords vocabulary entry) := by
  rw [mutability, Traced.value_bind, Traced.value_find?, first, keywords, List.head?_filter]
  rfl

theorem contains_payable_keywords (entry : NodeId) :
    (forest.keywords vocabulary entry).contains .payable =
      (forest.hasTerminal vocabulary (some entry) payable.literal).value := by
  rw [Bool.eq_iff_iff, List.contains_iff_mem, mem_keywords]
  exact and_iff_right (by decide)

theorem any_isReadOnly_keywords (entry : NodeId) :
    (forest.keywords vocabulary entry).any Mutability.isReadOnly =
      (forest.saysReadOnly vocabulary (some entry)).value := by
  have hvalue : (forest.saysReadOnly vocabulary (some entry)).value =
      ((forest.hasTerminal vocabulary (some entry) view.literal).value ||
        (forest.hasTerminal vocabulary (some entry) Mutability.pure.literal).value) := by
    rw [saysReadOnly, Traced.value_bind]
    cases (forest.hasTerminal vocabulary (some entry) view.literal).value <;> rfl
  rw [Bool.eq_iff_iff, any_isReadOnly, hvalue, Bool.or_eq_true, mem_keywords, mem_keywords]
  exact or_congr (and_iff_right (by decide)) (and_iff_right (by decide))

theorem outcome_declaredMutability (entries : List NodeId) :
    (forest.declaredMutability vocabulary (entries.map some)).outcome =
      declare (entries.map (forest.keywords vocabulary)) := by
  have hpayable : (forest.isPayable vocabulary (entries.map some)).value =
      (payableCount (entries.map (forest.keywords vocabulary)) == 1) := by
    simp only [isPayable, Traced.value_bind, Traced.value_pure, Traced.value_count, payableCount,
      List.countP_map, Function.comp_def, contains_payable_keywords]
  have hreadOnly : (forest.isReadOnly vocabulary (entries.map some)).value =
      (readOnlyCount (entries.map (forest.keywords vocabulary)) == 1) := by
    simp only [isReadOnly, Traced.value_bind, Traced.value_pure, Traced.value_count,
      readOnlyCount, List.countP_map, Function.comp_def, any_isReadOnly_keywords]
  have hfirst : (Traced.firstOf? (forest.mutability vocabulary) Mutability.isReadOnly
      (entries.map some)).value =
      ((entries.map (forest.keywords vocabulary)).map first).find? Mutability.isReadOnly := by
    simp only [Traced.value_firstOf?, List.map_map, Function.comp_def, value_mutability]
  simp only [declaredMutability, declare, Checked.outcome_bind, Checked.outcome_monadLift,
    Checked.outcome_pure, Checked.outcome_get, Except.bind, apply_ite Checked.outcome, hpayable,
    hreadOnly, hfirst, beq_iff_eq]

/-! ## Functions -/

/-- The entries of a function's modifier list, each by its keywords. -/
def declaredKeywords (n : NodeId) : List (List Mutability) :=
  (forest.mutabilityEntries (forest.modifierList? (some n))).map (forest.keywords vocabulary)

theorem declaredKeywords_sublist (n : NodeId) :
    ∀ entry ∈ forest.declaredKeywords vocabulary n, entry.Sublist declarable := by
  intro entry hentry
  obtain ⟨e, -, rfl⟩ := List.mem_map.mp hentry
  exact forest.keywords_sublist vocabulary e

/-- The summary of a function for a name and a mutability. -/
def summaryOf (n : NodeId) (mutability : Mutability) (name : Option String) : FunctionSummary :=
  { name, mutability,
    visibility := (forest.declaredVisibility vocabulary (forest.modifierList? (some n))).value,
    isCallback := name == some FunctionSummary.callbackName }

theorem outcome_describe {n : NodeId} (h : forest.kind n = .functionDefinition) :
    (forest.describe vocabulary (some n)).outcome =
      (declare (forest.declaredKeywords vocabulary n)).bind fun mutability =>
        (forest.functionName (some n)).outcome.map (forest.summaryOf vocabulary n mutability) := by
  have hkind : forest.isKind (some n) .functionDefinition = true := by simp [isKind, h]
  simp only [describe, isCallback, Checked.outcome_bind, Checked.outcome_monadLift,
    Checked.outcome_pure, Checked.outcome_require, Except.bind, hkind,
    outcome_declaredMutability, if_true]
  rw [declaredKeywords]
  cases declare ((forest.mutabilityEntries (forest.modifierList? (some n))).map
      (forest.keywords vocabulary)) with
  | error fault => rfl
  | ok mutability =>
      cases (forest.functionName (some n)).outcome with
      | error fault => rfl
      | ok name => rfl

theorem outcome_functionName {n : NodeId} (h : forest.kind n = .functionDefinition) :
    (forest.functionName (some n)).outcome =
      match forest.firstChild? (some n) .identifier with
      | none => .ok none
      | some identifier => (forest.text identifier).map some := by
  have hkind : forest.kindOf (some n) = .functionDefinition := h
  simp only [functionName, Checked.outcome_bind, Checked.outcome_require, hkind]
  cases forest.firstChild? (some n) .identifier with
  | none => rfl
  | some identifier =>
      simp only [readText, Checked.outcome_bind, Checked.outcome_ofExcept, Checked.outcome_pure,
        decide_true, Bool.true_or, if_true, Except.bind]
      cases forest.text identifier <;> rfl

end Entries

/-- A function definition. What stands in it for the name is a tree; the rest may be anything. -/
structure IsFunction (forest : Forest) (n : NodeId) : Prop where
  kind : forest.kind n = .functionDefinition
  identifier : ∀ i, forest.firstChild? (some n) .identifier = some i → forest.Tree i

theorem IsFunction.name_ok {forest : Forest} {n : NodeId} (h : forest.IsFunction n) :
    ∃ name, (forest.functionName (some n)).outcome = .ok name := by
  rw [outcome_functionName forest h.kind]
  cases hchild : forest.firstChild? (some n) .identifier with
  | none => exact ⟨none, rfl⟩
  | some identifier =>
      obtain ⟨text, htext⟩ := (h.identifier identifier hchild).text_ok
      exact ⟨some text, by simp only [htext]; rfl⟩

theorem IsFunction.outcome_mutability {forest : Forest} {n : NodeId} (h : forest.IsFunction n)
    (vocabulary : Vocabulary) :
    (forest.describe vocabulary (some n)).outcome.map (·.mutability) =
      declare (forest.declaredKeywords vocabulary n) := by
  obtain ⟨name, hname⟩ := h.name_ok
  rw [outcome_describe forest vocabulary h.kind, hname]
  cases declare (forest.declaredKeywords vocabulary n) <;> rfl

/-- The outcome of summing up a function, for all nodes. What is no function definition is
refused. A function gets the mutability that its entries declare together, or has none to get,
which is found before its name is read. The order of the entries does not count, no more than
the forest around them; a single entry declares what it is read as; and entries with at most
one keyword each never contradict each other. -/
theorem describe_exact (forest : Forest) (vocabulary : Vocabulary) :
    (∀ node, forest.isKind node .functionDefinition = false →
      (forest.describe vocabulary node).outcome =
        .error (.precondition (.function (forest.kindOf node)))) ∧
    (∀ n, forest.kind n = .functionDefinition →
      ∃ result, (∀ x, Declared (forest.declaredKeywords vocabulary n) x ↔ result = x) ∧
        (forest.describe vocabulary (some n)).outcome = result.bind fun mutability =>
          (forest.functionName (some n)).outcome.map
            (forest.summaryOf vocabulary n mutability)) ∧
    ∀ n, forest.IsFunction n →
      (∀ result, (forest.describe vocabulary (some n)).outcome.map (·.mutability) = result ↔
        Declared (forest.declaredKeywords vocabulary n) result) ∧
      ((∀ entry ∈ forest.declaredKeywords vocabulary n, entry.length ≤ 1) →
        ∃ summary, (forest.describe vocabulary (some n)).outcome = .ok summary) ∧
      (∀ e, forest.mutabilityEntries (forest.modifierList? (some n)) = [e] →
        (forest.describe vocabulary (some n)).outcome.map (·.mutability) =
          .ok (forest.mutability vocabulary (some e)).value) ∧
      ∀ (other : Forest) (w : Vocabulary) (m : NodeId), other.IsFunction m →
        (forest.declaredKeywords vocabulary n).Perm (other.declaredKeywords w m) →
        (forest.describe vocabulary (some n)).outcome.map (·.mutability) =
          (other.describe w (some m)).outcome.map (·.mutability) := by
  refine ⟨?_, ?_, ?_⟩
  · intro node hkind
    simp only [describe, Checked.outcome_bind, Checked.outcome_require, hkind]
    rfl
  · intro n hkind
    have hsublist := forest.declaredKeywords_sublist vocabulary n
    exact ⟨_, fun x => declared_iff hsublist, outcome_describe forest vocabulary hkind⟩
  · intro n hn
    have hsublist := forest.declaredKeywords_sublist vocabulary n
    rw [hn.outcome_mutability vocabulary]
    refine ⟨?_, ?_, ?_, ?_⟩
    · intro result
      exact (declared_iff hsublist).symm
    · intro hsingle
      obtain ⟨mutability, hmutability⟩ := (declared_declare hsublist).exists_ok hsingle
      obtain ⟨name, hname⟩ := hn.name_ok
      rw [outcome_describe forest vocabulary hn.kind, hmutability, hname]
      exact ⟨forest.summaryOf vocabulary n mutability name, rfl⟩
    · intro e he
      rw [declaredKeywords, he, value_mutability]
      exact declare_singleton (forest.keywords_sublist vocabulary e)
    · intro other w m hm hperm
      rw [hm.outcome_mutability w]
      have hdeclared := (declared_declare hsublist).perm hperm
      exact ((declared_iff (other.declaredKeywords_sublist w m)).mp hdeclared).symm

/-- A function with an entry that says both `view` and `payable`, and another `payable`. Its
modifier list is no function. -/
theorem describe_exact_contradictory :
    let vocabulary := Vocabulary.ofNames [none, some "'payable'", some "'view'"] []
    let forest : Forest := ⟨#[
      { label := .rule (.ofKind .functionDefinition), children := [1, 3] },
      { label := .rule (.ofKind .identifier), children := [2], parent := some 0 },
      { label := .token ⟨3, "f"⟩ false, parent := some 1 },
      { label := .rule (.ofKind .modifierList), children := [4, 7], parent := some 0 },
      { label := .rule (.ofKind .stateMutability), children := [5, 6], parent := some 3 },
      { label := .token ⟨2, "view"⟩ false, parent := some 4 },
      { label := .token ⟨1, "payable"⟩ false, parent := some 4 },
      { label := .rule (.ofKind .stateMutability), children := [8], parent := some 3 },
      { label := .token ⟨1, "payable"⟩ false, parent := some 7 }]⟩
    (forest.describe vocabulary (some 0)).outcome.map (·.mutability) = .error .noMutability ∧
      (forest.describe vocabulary (some 3)).outcome =
        .error (.precondition (.function .modifierList)) := by
  intro vocabulary forest
  have hfunction : forest.IsFunction 0 := by
    refine ⟨rfl, ?_⟩
    intro i hi
    obtain rfl : 1 = i := Option.some.inj hi
    exact .rule rfl (List.forall_mem_singleton.mpr (.token rfl))
  have hentries : forest.declaredKeywords vocabulary 0 = [[.payable, .view], [.payable]] := by
    show [forest.keywords vocabulary 4, forest.keywords vocabulary 7] = _
    rw [keywords_eq forest vocabulary (show forest.isRule 4 = true from rfl),
      keywords_eq forest vocabulary (show forest.isRule 7 = true from rfl)]
    simp only [Vocabulary.tokenType_eq_find?]
    decide +kernel
  obtain ⟨hother, -, hexact⟩ := describe_exact forest vocabulary
  obtain ⟨hdeclared, -⟩ := hexact 0 hfunction
  refine ⟨(hdeclared _).mpr ?_, hother (some 3) rfl⟩
  rw [hentries]
  exact .contradictory (by decide) (by decide) (List.mem_cons_self ..) (by decide)

/-- Entries that say a keyword too often. A second `payable` leaves the mutability open unless
one entry says `view` or `pure`: that entry decides then, and has nothing to decide with if it
says `payable` too. A second `view` or `pure` leaves it open unless one entry says `payable`. -/
theorem IsFunction.describe_malformed {forest : Forest} {n : NodeId} (h : forest.IsFunction n)
    (vocabulary : Vocabulary) {entries : List (List Mutability)}
    (hentries : forest.declaredKeywords vocabulary n = entries) :
    (2 ≤ payableCount entries →
      ((forest.describe vocabulary (some n)).outcome.map (·.mutability) = .ok .unspecified ↔
        readOnlyCount entries ≠ 1) ∧
      ∀ entry ∈ entries, view ∈ entry ∨ pure ∈ entry → readOnlyCount entries = 1 →
        (forest.describe vocabulary (some n)).outcome.map (·.mutability) =
          if payable ∈ entry then .error .noMutability
          else if view ∈ entry then .ok view
          else .ok pure) ∧
    (2 ≤ readOnlyCount entries →
      ((forest.describe vocabulary (some n)).outcome.map (·.mutability) = .ok .unspecified ↔
        payableCount entries ≠ 1) ∧
      (payableCount entries = 1 →
        (forest.describe vocabulary (some n)).outcome.map (·.mutability) = .ok .payable)) := by
  have hsublist : ∀ entry ∈ entries, entry.Sublist declarable :=
    hentries ▸ forest.declaredKeywords_sublist vocabulary n
  rw [h.outcome_mutability vocabulary, hentries, ← declared_iff hsublist, declared_unspecified_iff]
  refine ⟨?_, ?_⟩
  · intro htwice
    have hpayable : payableCount entries ≠ 1 := by omega
    refine ⟨and_iff_right hpayable, ?_⟩
    intro entry hmem hkeywords hreadOnly
    exact declare_eq_of_mem hsublist hpayable hreadOnly hmem hkeywords
  · intro htwice
    have hreadOnly : readOnlyCount entries ≠ 1 := by omega
    refine ⟨and_iff_left hreadOnly, ?_⟩
    intro hpayable
    exact (declared_iff hsublist).mp (.payable hpayable)

/-- A function with the entries `payable`, `payable` and `view`. -/
def payableTwice : Forest := ⟨#[
  { label := .rule (.ofKind .functionDefinition), children := [1, 3] },
  { label := .rule (.ofKind .identifier), children := [2], parent := some 0 },
  { label := .token ⟨3, "f"⟩ false, parent := some 1 },
  { label := .rule (.ofKind .modifierList), children := [4, 6, 8], parent := some 0 },
  { label := .rule (.ofKind .stateMutability), children := [5], parent := some 3 },
  { label := .token ⟨1, "payable"⟩ false, parent := some 4 },
  { label := .rule (.ofKind .stateMutability), children := [7], parent := some 3 },
  { label := .token ⟨1, "payable"⟩ false, parent := some 6 },
  { label := .rule (.ofKind .stateMutability), children := [9], parent := some 3 },
  { label := .token ⟨2, "view"⟩ false, parent := some 8 }]⟩

theorem isFunction_payableTwice : payableTwice.IsFunction 0 := by
  refine ⟨rfl, ?_⟩
  intro i hi
  obtain rfl : 1 = i := Option.some.inj hi
  exact .rule rfl (List.forall_mem_singleton.mpr (.token rfl))

theorem declaredKeywords_payableTwice :
    payableTwice.declaredKeywords (.ofNames [none, some "'payable'", some "'view'"] []) 0 =
      [[.payable], [.payable], [.view]] := by
  show [payableTwice.keywords _ 4, payableTwice.keywords _ 6, payableTwice.keywords _ 8] = _
  rw [keywords_eq payableTwice _ (show payableTwice.isRule 4 = true from rfl),
    keywords_eq payableTwice _ (show payableTwice.isRule 6 = true from rfl),
    keywords_eq payableTwice _ (show payableTwice.isRule 8 = true from rfl)]
  simp only [Vocabulary.tokenType_eq_find?]
  decide +kernel

theorem IsFunction.describe_malformed_view :
    payableTwice.IsFunction 0 ∧
      (payableTwice.describe (.ofNames [none, some "'payable'", some "'view'"] [])
        (some 0)).outcome.map (·.mutability) = .ok .view := by
  obtain ⟨hpayable, -⟩ :=
    isFunction_payableTwice.describe_malformed _ declaredKeywords_payableTwice
  obtain ⟨-, hentry⟩ := hpayable (by decide)
  exact ⟨isFunction_payableTwice, hentry [.view] (by decide) (by decide) (by decide)⟩

/-- A keyword said too often does not always leave the mutability open. -/
theorem IsFunction.describe_not_unspecified :
    ¬ ∀ (forest : Forest) (vocabulary : Vocabulary) (n : NodeId), forest.IsFunction n →
      2 ≤ payableCount (forest.declaredKeywords vocabulary n) ∨
        2 ≤ readOnlyCount (forest.declaredKeywords vocabulary n) →
      ∃ summary, (forest.describe vocabulary (some n)).outcome = .ok summary ∧
        summary.mutability = .unspecified := by
  intro hall
  have hmutability := isFunction_payableTwice.outcome_mutability
    (.ofNames [none, some "'payable'", some "'view'"] [])
  have hall := hall payableTwice (.ofNames [none, some "'payable'", some "'view'"] []) 0
    isFunction_payableTwice
  rw [declaredKeywords_payableTwice] at hall hmutability
  obtain ⟨summary, hsummary, hunspecified⟩ := hall (by decide)
  have hview : Except.ok summary.mutability = declare [[.payable], [.payable], [.view]] := by
    rw [← hmutability, hsummary]
    rfl
  rw [hunspecified] at hview
  exact absurd hview (by decide)

end Forest

end SolidityLint
