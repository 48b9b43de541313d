import Mathlib.Computability.Language
import Mathlib.Data.Char
import Mathlib.Order.CompletePartialOrder
import SolidityLint.Proofs.TerminalsByText

/-!
# The texts of the lexical forms

A text that is no literal is given a type by its form, and the forms are told apart by
tests that walk over the text. Here the forms are languages, put together from sets of
characters, and the tests are held against them.

Only one test does more than to look at all characters in a row. A decimal number is taken
apart from left to right, and each part takes as many characters as it can. That this finds a
number wherever there is one is a matter of what comes behind a part: it never begins with a
character that would still belong to the part (`NeverBegins`). So a part that stops early
would leave something behind that nothing takes.

A line feed at the end is left out before the first three tests. That is the same as to allow
one behind the pattern, because none of the three has a line feed in its alphabet. The
alphabets tell the two kinds of numbers apart too. All else is told apart by the first
character, and so a text has one form at most, and the order of the tests does not matter.
-/

namespace SolidityLint

namespace Lexeme

open scoped Computability

/-! ## Patterns -/

/-- The texts of one character from a set. -/
def oneOf (set : Set Char) : Language Char := {text | ∃ c ∈ set, text = [c]}

/-- The texts of one or more characters from a set. -/
def someOf (set : Set Char) : Language Char := oneOf set * (oneOf set)∗

def digits : Set Char := Set.Icc '0' '9'

def letters : Set Char := Set.Icc 'A' 'Z' ∪ Set.Icc 'a' 'z' ∪ {'_', '$'}

def hexDigits : Set Char := digits ∪ Set.Icc 'a' 'f' ∪ Set.Icc 'A' 'F'

def quotes : Set Char := {'\x27', '"'}

def identifiers : Language Char := oneOf letters * (oneOf (letters ∪ digits))∗

def hexNumbers : Language Char := oneOf {'0'} * oneOf {'x'} * someOf hexDigits

def fractions : Language Char := oneOf {'.'} * someOf digits

def exponents : Language Char := oneOf {'e', 'E'} * someOf digits

def decimalNumbers : Language Char :=
  oneOf digits * (oneOf (digits ∪ {'_'}))∗ * (1 + fractions) * (1 + exponents)

def quotedTexts : Language Char :=
  {text | 2 ≤ text.length ∧ ∃ quote ∈ quotes,
    text.head? = some quote ∧ text.getLast? = some quote}

/-- A pattern, and perhaps a line feed behind it. -/
def beforeFeed (pattern : Language Char) : Language Char := pattern * (1 + oneOf {'\n'})

/-- The texts of a form. -/
def texts : Lexeme → Language Char
  | .identifier => beforeFeed identifiers
  | .decimalNumber => beforeFeed decimalNumbers
  | .hexNumber => beforeFeed hexNumbers
  | .stringFragment => quotedTexts

section Patterns

variable {set : Set Char} {pattern other : Language Char}

@[simp]
theorem nil_not_mem_oneOf_mul : [] ∉ oneOf set * pattern := by
  rintro ⟨_, ⟨c, -, rfl⟩, rest, -, heq⟩
  cases heq

@[simp]
theorem cons_mem_oneOf_mul {c : Char} {rest : List Char} :
    c :: rest ∈ oneOf set * pattern ↔ c ∈ set ∧ rest ∈ pattern := by
  constructor
  · rintro ⟨_, ⟨d, hd, rfl⟩, rest', hrest, heq⟩
    cases heq
    exact ⟨hd, hrest⟩
  · rintro ⟨hc, hrest⟩
    exact ⟨[c], ⟨c, hc, rfl⟩, rest, hrest, rfl⟩

@[simp]
theorem mem_kstar_oneOf {text : List Char} : text ∈ (oneOf set)∗ ↔ ∀ c ∈ text, c ∈ set := by
  rw [Language.mem_kstar]
  constructor
  · rintro ⟨pieces, rfl, hpieces⟩ c hc
    obtain ⟨piece, hpiece, hc⟩ := List.mem_flatten.mp hc
    obtain ⟨d, hd, rfl⟩ := hpieces piece hpiece
    rwa [List.mem_singleton.mp hc]
  · intro h
    refine ⟨text.map fun c => [c], (List.flatMap_singleton' text).symm, fun piece hpiece => ?_⟩
    obtain ⟨c, hc, rfl⟩ := List.mem_map.mp hpiece
    exact ⟨c, h c hc, rfl⟩

theorem mem_someOf {text : List Char} :
    text ∈ someOf set ↔ text ≠ [] ∧ ∀ c ∈ text, c ∈ set := by
  cases text <;> simp [someOf]

/-- No text of the pattern begins with a character from the set. -/
def NeverBegins (set : Set Char) (pattern : Language Char) : Prop :=
  ∀ c ∈ set, ∀ rest, c :: rest ∉ pattern

theorem neverBegins_one : NeverBegins set 1 := by
  intro c _ rest h
  cases h

theorem neverBegins_oneOf_mul {first : Set Char} (h : Disjoint set first) :
    NeverBegins set (oneOf first * pattern) := by
  intro c hc rest hmem
  exact Set.disjoint_left.mp h hc (cons_mem_oneOf_mul.mp hmem).1

theorem NeverBegins.add (h : NeverBegins set pattern) (h' : NeverBegins set other) :
    NeverBegins set (pattern + other) := by
  rintro c hc rest (hmem | hmem)
  · exact h c hc rest hmem
  · exact h' c hc rest hmem

/-- A run of characters can be taken as long as it goes, if what comes behind it does not begin
with one of them. -/
theorem mem_kstar_oneOf_mul {p : Char → Bool} (hp : ∀ c, p c = true ↔ c ∈ set)
    (hstop : NeverBegins set pattern) {text : List Char} :
    text ∈ (oneOf set)∗ * pattern ↔ text.dropWhile p ∈ pattern := by
  rw [Language.mem_mul]
  constructor
  · rintro ⟨front, hfront, rest, hrest, rfl⟩
    have hall : ∀ c ∈ front, p c = true := fun c hc => (hp c).mpr (mem_kstar_oneOf.mp hfront c hc)
    rw [List.dropWhile_append_of_pos hall]
    cases rest with
    | nil => exact hrest
    | cons c rest =>
        rwa [List.dropWhile_cons_of_neg fun hc => hstop c ((hp c).mp hc) rest hrest]
  · intro h
    refine ⟨text.takeWhile p, mem_kstar_oneOf.mpr fun c hc => ?_, _, h,
      List.takeWhile_append_dropWhile⟩
    exact (hp c).mp (List.mem_takeWhile_imp hc)

end Patterns

/-! ## The tests decide the patterns -/

theorem isDigit_iff (c : Char) : c.isDigit = true ↔ c ∈ digits := by
  simp [Char.isDigit, digits, Char.le_def]

theorem isUpper_iff (c : Char) : c.isUpper = true ↔ c ∈ Set.Icc 'A' 'Z' := decide_eq_true_iff

theorem isLower_iff (c : Char) : c.isLower = true ↔ c ∈ Set.Icc 'a' 'z' :=
  Bool.and_eq_true_iff.trans (and_congr decide_eq_true_iff decide_eq_true_iff)

theorem isAlpha_iff (c : Char) :
    c.isAlpha = true ↔ c ∈ Set.Icc 'A' 'Z' ∨ c ∈ Set.Icc 'a' 'z' := by
  rw [← isUpper_iff, ← isLower_iff]
  exact Bool.or_eq_true_iff

theorem isIdentifierStart_iff (c : Char) : isIdentifierStart c = true ↔ c ∈ letters := by
  simp only [isIdentifierStart, isAlpha_iff, letters, Bool.or_eq_true, beq_iff_eq, Set.mem_union,
    or_assoc]
  rfl

theorem isIdentifierPart_iff (c : Char) : isIdentifierPart c = true ↔ c ∈ letters ∪ digits := by
  rw [isIdentifierPart, Bool.or_eq_true, isIdentifierStart_iff, isDigit_iff]
  rfl

theorem isHexDigit_iff (c : Char) : isHexDigit c = true ↔ c ∈ hexDigits := by
  simp only [isHexDigit, hexDigits, Bool.or_eq_true, Bool.and_eq_true, decide_eq_true_eq,
    isDigit_iff]
  rfl

theorem isIdentifier_iff (text : List Char) : isIdentifier text = true ↔ text ∈ identifiers := by
  cases text with
  | nil => simp [isIdentifier, identifiers]
  | cons c rest =>
      simp [isIdentifier, identifiers, isIdentifierStart_iff, isIdentifierPart_iff]

theorem isHexNumber_iff (text : List Char) : isHexNumber text = true ↔ text ∈ hexNumbers := by
  rw [hexNumbers, mul_assoc]
  rcases text with _ | ⟨c, _ | ⟨d, rest⟩⟩
  · simp [isHexNumber]
  · simp [isHexNumber]
  · simp only [cons_mem_oneOf_mul, Set.mem_singleton_iff, mem_someOf]
    rw [isHexNumber.eq_def]
    split
    · next heq =>
        cases heq
        simp [isHexDigit_iff]
    · next hno =>
        refine iff_of_false (by simp) ?_
        rintro ⟨rfl, rfl, -⟩
        exact hno rest rfl

theorem afterDigits?_bind_iff {next : List Char → Option (List Char)} {pattern : Language Char}
    (hnext : ∀ text, next text = some [] ↔ text ∈ pattern) (hstop : NeverBegins digits pattern)
    (text : List Char) :
    (afterDigits? text).bind next = some [] ↔ text ∈ someOf digits * pattern := by
  rw [someOf, mul_assoc]
  cases text with
  | nil => simp [afterDigits?]
  | cons c rest =>
      rw [cons_mem_oneOf_mul, mem_kstar_oneOf_mul isDigit_iff hstop, ← isDigit_iff, afterDigits?]
      split
      · next hdigit => simp [hdigit, hnext]
      · next hdigit => simp [hdigit]

theorem afterExponent?_iff (text : List Char) :
    afterExponent? text = some [] ↔ text ∈ 1 + exponents := by
  have hdigits : ∀ rest, afterDigits? rest = some [] ↔ rest ∈ someOf digits := by
    intro rest
    have hend : ∀ cs : List Char, some cs = some [] ↔ cs ∈ (1 : Language Char) := by simp
    have hiff := afterDigits?_bind_iff hend neverBegins_one rest
    rwa [Option.bind_fun_some, mul_one] at hiff
  rw [Language.mem_add, Language.mem_one, exponents, afterExponent?.eq_def]
  split
  · next rest => simp [hdigits]
  · next rest => simp [hdigits]
  · next he hE =>
      cases text with
      | nil => simp
      | cons c rest =>
          refine iff_of_false (by simp) ?_
          rw [cons_mem_oneOf_mul]
          rintro (h | ⟨rfl | rfl, -⟩)
          · cases h
          · exact he rest rfl
          · exact hE rest rfl

theorem neverBegins_exponents {set : Set Char} (he : 'e' ∉ set) (hE : 'E' ∉ set) :
    NeverBegins set (1 + exponents) := by
  refine neverBegins_one.add (neverBegins_oneOf_mul ?_)
  simpa using ⟨he, hE⟩

theorem afterFraction?_bind_iff (text : List Char) :
    (afterFraction? text).bind afterExponent? = some [] ↔
      text ∈ (1 + fractions) * (1 + exponents) := by
  have hdigits := afterDigits?_bind_iff afterExponent?_iff
    (neverBegins_exponents (by simp [digits]) (by simp [digits]))
  have hpoint : NeverBegins {'.'} (1 + exponents) := neverBegins_exponents (by simp) (by simp)
  rw [add_mul, one_mul, fractions, mul_assoc, Language.mem_add, afterFraction?.eq_def]
  split
  · -- No exponent begins with a point, so there has to be a fraction.
    next rest =>
      simp only [hpoint '.' rfl rest, false_or, cons_mem_oneOf_mul, Set.mem_singleton_iff, true_and]
      exact hdigits rest
  · next hno =>
      rw [Option.bind_some, afterExponent?_iff]
      refine (or_iff_left ?_).symm
      cases text with
      | nil => exact nil_not_mem_oneOf_mul
      | cons c rest =>
          rw [cons_mem_oneOf_mul]
          rintro ⟨rfl, -⟩
          exact hno rest rfl

theorem isDecimalNumber_iff (text : List Char) :
    isDecimalNumber text = true ↔ text ∈ decimalNumbers := by
  have hstop : NeverBegins (digits ∪ {'_'}) ((1 + fractions) * (1 + exponents)) := by
    rw [add_mul, one_mul, fractions, mul_assoc]
    refine (neverBegins_exponents ?_ ?_).add (neverBegins_oneOf_mul ?_)
    · simp [digits]
    · simp [digits]
    · simp [digits]
  have hrun : ∀ c : Char, (c.isDigit || c == '_') = true ↔ c ∈ digits ∪ {'_'} := by
    intro c
    rw [Bool.or_eq_true, isDigit_iff, beq_iff_eq]
    rfl
  rw [decimalNumbers, mul_assoc, mul_assoc]
  cases text with
  | nil => simp [isDecimalNumber]
  | cons c rest =>
      rw [cons_mem_oneOf_mul, mem_kstar_oneOf_mul hrun hstop, ← afterFraction?_bind_iff,
        isDecimalNumber, Bool.and_eq_true, isDigit_iff, beq_iff_eq]

theorem mem_quotedTexts {text : List Char} :
    text ∈ quotedTexts ↔ 2 ≤ text.length ∧ ∃ quote ∈ quotes,
      text.head? = some quote ∧ text.getLast? = some quote := Iff.rfl

theorem isStringFragment_iff (text : List Char) :
    isStringFragment text = true ↔ text ∈ quotedTexts := by
  rw [mem_quotedTexts]
  rcases text with _ | ⟨c, _ | ⟨d, rest⟩⟩
  · simp [isStringFragment]
  · simp [isStringFragment]
  · simp only [isStringFragment, Bool.and_eq_true, Bool.or_eq_true, beq_iff_eq]
    constructor
    · rintro ⟨hquote, hlast⟩
      exact ⟨by simp, c, hquote, rfl, hlast⟩
    · rintro ⟨-, quote, hquote, hhead, hlast⟩
      cases hhead
      exact ⟨hquote, hlast⟩

/-! ## The line feed at the end

A pattern is over an alphabet if it is below the texts of the alphabet. That is inherited by
all that patterns are put together with. -/

section Alphabets

variable {set alphabet : Set Char} {pattern other : Language Char}

theorem oneOf_le (h : set ⊆ alphabet) : oneOf set ≤ (oneOf alphabet)∗ := by
  rintro _ ⟨c, hc, rfl⟩
  exact mem_kstar_oneOf.mpr (List.forall_mem_singleton.mpr (h hc))

theorem mul_le (h : pattern ≤ (oneOf alphabet)∗) (h' : other ≤ (oneOf alphabet)∗) :
    pattern * other ≤ (oneOf alphabet)∗ :=
  (mul_le_mul' h h').trans_eq (kstar_mul_kstar _)

theorem kstar_oneOf_le (h : set ⊆ alphabet) : (oneOf set)∗ ≤ (oneOf alphabet)∗ :=
  (kstar_mono (oneOf_le h)).trans_eq (kstar_idem _)

theorem someOf_le (h : set ⊆ alphabet) : someOf set ≤ (oneOf alphabet)∗ :=
  mul_le (oneOf_le h) (kstar_oneOf_le h)

theorem one_add_le (h : pattern ≤ (oneOf alphabet)∗) : 1 + pattern ≤ (oneOf alphabet)∗ :=
  add_le one_le_kstar h

theorem identifiers_le : identifiers ≤ (oneOf (letters ∪ digits))∗ :=
  mul_le (oneOf_le Set.subset_union_left) (kstar_oneOf_le subset_rfl)

theorem hexNumbers_le : hexNumbers ≤ (oneOf ({'0', 'x'} ∪ hexDigits))∗ :=
  mul_le (mul_le (oneOf_le (by simp)) (oneOf_le (by simp))) (someOf_le Set.subset_union_right)

theorem decimalNumbers_le (h : digits ∪ {'_', '.', 'e', 'E'} ⊆ alphabet) :
    decimalNumbers ≤ (oneOf alphabet)∗ := by
  obtain ⟨hdigits, hmarks⟩ := Set.union_subset_iff.mp h
  simp only [Set.insert_subset_iff, Set.singleton_subset_iff] at hmarks
  obtain ⟨hunderscore, hpoint, he, hE⟩ := hmarks
  have hwhole : digits ∪ {'_'} ⊆ alphabet :=
    Set.union_subset hdigits (Set.singleton_subset_iff.mpr hunderscore)
  refine mul_le (mul_le (mul_le (oneOf_le hdigits) (kstar_oneOf_le hwhole)) (one_add_le ?_))
    (one_add_le ?_)
  · exact mul_le (oneOf_le (Set.singleton_subset_iff.mpr hpoint)) (someOf_le hdigits)
  · exact mul_le (oneOf_le (Set.pair_subset he hE)) (someOf_le hdigits)

theorem withoutFinalFeed_mem_iff (h : pattern ≤ (oneOf alphabet)∗) (hfeed : '\n' ∉ alphabet)
    {text : List Char} : withoutFinalFeed text ∈ pattern ↔ text ∈ beforeFeed pattern := by
  rw [beforeFeed, mul_add, mul_one, Language.mem_add, withoutFinalFeed]
  split
  · next hlast =>
      obtain ⟨init, rfl⟩ := List.getLast?_eq_some_iff.mp hlast
      have hnot : init ++ ['\n'] ∉ pattern := fun hmem =>
        hfeed (mem_kstar_oneOf.mp (h hmem) '\n' (by simp))
      rw [List.dropLast_concat, or_iff_right hnot]
      constructor
      · exact fun hinit => ⟨init, hinit, ['\n'], ⟨'\n', rfl, rfl⟩, rfl⟩
      · rintro ⟨init', hinit, _, ⟨c, rfl, rfl⟩, heq⟩
        rwa [← List.append_inj_left' heq rfl]
  · next hlast =>
      refine (or_iff_left ?_).symm
      rintro ⟨init, -, _, ⟨c, rfl, rfl⟩, rfl⟩
      exact hlast List.getLast?_concat

end Alphabets

/-! ## One form for a text -/

/-- The characters that texts of a form begin with. -/
def firsts : Lexeme → Set Char
  | .identifier => letters
  | .decimalNumber | .hexNumber => digits
  | .stringFragment => quotes

theorem head?_of_mem_oneOf_mul {set : Set Char} {pattern : Language Char} {text : List Char}
    (h : text ∈ oneOf set * pattern) : ∃ c ∈ set, text.head? = some c := by
  cases text with
  | nil => exact absurd h nil_not_mem_oneOf_mul
  | cons c rest => exact ⟨c, (cons_mem_oneOf_mul.mp h).1, rfl⟩

theorem head?_of_mem_texts {form : Lexeme} {text : List Char} (h : text ∈ form.texts) :
    ∃ c ∈ form.firsts, text.head? = some c := by
  cases form with
  | identifier =>
      rw [texts, beforeFeed, identifiers, mul_assoc] at h
      exact head?_of_mem_oneOf_mul h
  | decimalNumber =>
      rw [texts, beforeFeed, decimalNumbers, mul_assoc, mul_assoc, mul_assoc] at h
      exact head?_of_mem_oneOf_mul h
  | hexNumber =>
      rw [texts, beforeFeed, hexNumbers, mul_assoc, mul_assoc] at h
      obtain ⟨c, rfl, hhead⟩ := head?_of_mem_oneOf_mul h
      exact ⟨'0', by simp [firsts, digits], hhead⟩
  | stringFragment =>
      obtain ⟨-, quote, hquote, hhead, -⟩ := h
      exact ⟨quote, hquote, hhead⟩

theorem disjoint_letters_digits : Disjoint letters digits := by
  refine Set.disjoint_left.mpr ?_
  rintro c ((⟨hle, -⟩ | ⟨hle, -⟩) | (rfl | rfl)) ⟨hzero, hnine⟩
  · exact absurd (hle.trans hnine) (by decide)
  · exact absurd (hle.trans hnine) (by decide)
  · exact absurd hnine (by decide)
  · exact absurd hzero (by decide)

theorem disjoint_quotes : Disjoint quotes (letters ∪ digits) := by
  refine Set.disjoint_left.mpr ?_
  rintro c (rfl | rfl)
  · simp [letters, digits]
  · simp [letters, digits]

/-- A hexadecimal number has an `x` in it, and a decimal number has not. -/
theorem not_mem_hexNumber {text : List Char} (h : text ∈ texts .decimalNumber) :
    text ∉ texts .hexNumber := by
  have hx : 'x' ∉ digits ∪ {'_', '.', 'e', 'E'} ∪ {'\n'} := by simp [digits]
  have hle : texts .decimalNumber ≤ (oneOf (digits ∪ {'_', '.', 'e', 'E'} ∪ {'\n'}))∗ :=
    mul_le (decimalNumbers_le Set.subset_union_left) (one_add_le (oneOf_le Set.subset_union_right))
  intro hhex
  rw [texts, beforeFeed, hexNumbers, mul_assoc, mul_assoc] at hhex
  rcases text with _ | ⟨c, _ | ⟨d, rest⟩⟩
  · exact nil_not_mem_oneOf_mul hhex
  · exact nil_not_mem_oneOf_mul (cons_mem_oneOf_mul.mp hhex).2
  · obtain ⟨-, hd⟩ := cons_mem_oneOf_mul.mp hhex
    obtain ⟨rfl, -⟩ := cons_mem_oneOf_mul.mp hd
    exact hx (mem_kstar_oneOf.mp (hle h) 'x' (by simp))

theorem eq_of_mem_texts {form other : Lexeme} {text : List Char} (h : text ∈ form.texts)
    (h' : text ∈ other.texts) : form = other := by
  obtain ⟨c, hc, hhead⟩ := head?_of_mem_texts h
  obtain ⟨d, hd, hhead'⟩ := head?_of_mem_texts h'
  cases hhead.symm.trans hhead'
  have hletter : c ∈ letters → c ∉ digits := fun hc =>
    Set.disjoint_left.mp disjoint_letters_digits hc
  have hquote : c ∈ quotes → c ∉ letters ∪ digits := fun hc =>
    Set.disjoint_left.mp disjoint_quotes hc
  -- Only the two kinds of numbers begin with the same characters.
  cases form <;> cases other
  case identifier.identifier | decimalNumber.decimalNumber | hexNumber.hexNumber |
    stringFragment.stringFragment => rfl
  case decimalNumber.hexNumber => exact absurd h' (not_mem_hexNumber h)
  case hexNumber.decimalNumber => exact absurd h (not_mem_hexNumber h')
  case identifier.decimalNumber | identifier.hexNumber => exact absurd hd (hletter hc)
  case decimalNumber.identifier | hexNumber.identifier => exact absurd hc (hletter hd)
  case stringFragment.identifier => exact absurd (.inl hd) (hquote hc)
  case identifier.stringFragment => exact absurd (.inl hc) (hquote hd)
  case stringFragment.decimalNumber | stringFragment.hexNumber => exact absurd (.inr hd) (hquote hc)
  case decimalNumber.stringFragment | hexNumber.stringFragment => exact absurd (.inr hc) (hquote hd)

/-! ## The form that is found -/

/-- Whether a text passes the test for a form. -/
def accepts (text : List Char) : Lexeme → Bool
  | .identifier => isIdentifier (withoutFinalFeed text)
  | .decimalNumber => isDecimalNumber (withoutFinalFeed text)
  | .hexNumber => isHexNumber (withoutFinalFeed text)
  | .stringFragment => isStringFragment text

theorem accepts_iff {text : List Char} {form : Lexeme} :
    accepts text form = true ↔ text ∈ form.texts := by
  cases form with
  | identifier =>
      exact (isIdentifier_iff _).trans
        (withoutFinalFeed_mem_iff identifiers_le (by simp [letters, digits]))
  | decimalNumber =>
      exact (isDecimalNumber_iff _).trans
        (withoutFinalFeed_mem_iff (decimalNumbers_le subset_rfl) (by simp [digits]))
  | hexNumber =>
      exact (isHexNumber_iff _).trans
        (withoutFinalFeed_mem_iff hexNumbers_le (by simp [hexDigits, digits]))
  | stringFragment => exact isStringFragment_iff text

theorem ofText?_eq_find? (text : String) :
    ofText? text =
      [identifier, hexNumber, decimalNumber, stringFragment].find? (accepts text.toList) := by
  simp only [ofText?, List.find?_cons, List.find?_nil, accepts]
  cases isIdentifier (withoutFinalFeed text.toList) with
  | true => rfl
  | false =>
      cases isHexNumber (withoutFinalFeed text.toList) with
      | true => rfl
      | false =>
          cases isDecimalNumber (withoutFinalFeed text.toList) with
          | true => rfl
          | false => cases isStringFragment text.toList <;> rfl

theorem ofText?_eq_some_iff {text : String} {form : Lexeme} :
    ofText? text = some form ↔ text.toList ∈ form.texts := by
  rw [ofText?_eq_find?]
  constructor
  · exact fun h => accepts_iff.mp (List.find?_some h)
  · intro h
    cases hfind : [identifier, hexNumber, decimalNumber, stringFragment].find?
        (accepts text.toList) with
    | none =>
        have hno := List.find?_eq_none.mp hfind form (by cases form <;> decide)
        exact absurd (accepts_iff.mpr h) hno
    | some found => rw [eq_of_mem_texts (accepts_iff.mp (List.find?_some hfind)) h]

theorem ofText?_eq_none_iff {text : String} :
    ofText? text = none ↔ ∀ form : Lexeme, text.toList ∉ form.texts := by
  simp only [← ofText?_eq_some_iff, Option.eq_none_iff_forall_ne_some]

end Lexeme

/-! ## The type of a text -/

/-- The least number from one on that has a name. -/
def NameTable.FirstAt (table : NameTable) (name : String) (id : Nat) : Prop :=
  IsLeast {k : Nat | 1 ≤ k ∧ table.name? k = some name} id

theorem NameTable.FirstAt.lt_size {table : NameTable} {name : String} {id : Nat}
    (h : table.FirstAt name id) : id < table.size :=
  lt_size_of_name? h.1.2

namespace Vocabulary

/-- The type that a text has to get. -/
inductive TextType (vocabulary : Vocabulary) (text : String) : Nat → Prop where
  | literal {type : Nat} (h : vocabulary.literals.FirstAt (inQuotes text) type) :
      TextType vocabulary text type
  | form {form : Lexeme} {type : Nat} (hliteral : inQuotes text ∉ vocabulary.literalNames)
      (hform : text.toList ∈ form.texts) (h : vocabulary.symbols.FirstAt form.symbol type) :
      TextType vocabulary text type

/-- A text that cannot get a type, and why. -/
inductive Untyped (vocabulary : Vocabulary) (text : String) : Fault → Prop where
  | formless (hliteral : inQuotes text ∉ vocabulary.literalNames)
      (hform : ∀ form : Lexeme, text.toList ∉ form.texts) :
      Untyped vocabulary text (.vocabulary (.noTokenType text))
  | symbolless {form : Lexeme} (hliteral : inQuotes text ∉ vocabulary.literalNames)
      (hform : text.toList ∈ form.texts)
      (hsymbol : ∀ type : Nat, 1 ≤ type → vocabulary.symbolName? type ≠ some form.symbol) :
      Untyped vocabulary text (.vocabulary (.unknownSymbol form.symbol))

variable {vocabulary : Vocabulary} {text : String}

theorem firstAt_tokenType (h : inQuotes text ∈ vocabulary.literalNames) :
    vocabulary.literals.FirstAt (inQuotes text) (vocabulary.tokenType (inQuotes text)) :=
  (vocabulary.foundAt_tokenType _).isLeast (mem_literalNames_iff.mp h)

theorem mem_literalNames_of_firstAt {type : Nat}
    (h : vocabulary.literals.FirstAt (inQuotes text) type) :
    inQuotes text ∈ vocabulary.literalNames :=
  mem_literalNames.mpr ⟨type, h.1⟩

theorem requireSymbol_eq_ok_iff {symbol : String} {type : Nat} :
    vocabulary.requireSymbol symbol = .ok type ↔ vocabulary.symbols.FirstAt symbol type := by
  have hfound := vocabulary.foundAt_symbolType symbol
  rw [requireSymbol]
  split
  · next hzero =>
      refine iff_of_false (by simp) fun h => ?_
      exact hfound.eq_zero_iff.mp hzero type h.1.1 h.1.2
  · next hsome =>
      rw [Except.ok.injEq]
      constructor
      · rintro rfl
        exact hfound.isLeast hsome
      · exact (hfound.isLeast hsome).unique

theorem requireSymbol_eq_error_iff {symbol : String} {fault : Fault} :
    vocabulary.requireSymbol symbol = .error fault ↔
      (∀ type : Nat, 1 ≤ type → vocabulary.symbolName? type ≠ some symbol) ∧
        fault = .vocabulary (.unknownSymbol symbol) := by
  have hzero : vocabulary.symbolType symbol = 0 ↔
      ∀ type : Nat, 1 ≤ type → vocabulary.symbolName? type ≠ some symbol :=
    (vocabulary.foundAt_symbolType symbol).eq_zero_iff
  rw [← hzero, requireSymbol]
  split
  · next h => simp [h, eq_comm]
  · next h => simpa using fun h' => absurd h' h

theorem typeOfText_eq (hliteral : inQuotes text ∉ vocabulary.literalNames) :
    vocabulary.typeOfText text =
      ((Lexeme.ofText? text).map fun form => vocabulary.requireSymbol form.symbol).getD
        (.error (.vocabulary (.noTokenType text))) := by
  have hzero : vocabulary.tokenType (inQuotes text) = 0 :=
    not_not.mp (mt mem_literalNames_iff.mpr hliteral)
  rw [typeOfText, hzero]
  cases Lexeme.ofText? text <;> rfl

theorem typeOfText_eq_ok_iff {type : Nat} :
    vocabulary.typeOfText text = .ok type ↔ vocabulary.TextType text type := by
  by_cases hliteral : inQuotes text ∈ vocabulary.literalNames
  · have hfirst := firstAt_tokenType hliteral
    rw [typeOfText_of_literal (mem_literalNames_iff.mp hliteral), Except.ok.injEq]
    constructor
    · rintro rfl
      exact .literal hfirst
    · intro h
      cases h with
      | literal h => exact hfirst.unique h
      | form hno _ _ => exact absurd hliteral hno
  · rw [typeOfText_eq hliteral]
    cases hfound : Lexeme.ofText? text with
    | none =>
        refine iff_of_false (by simp) fun h => ?_
        cases h with
        | literal h => exact hliteral (mem_literalNames_of_firstAt h)
        | form _ hform _ => exact Lexeme.ofText?_eq_none_iff.mp hfound _ hform
    | some found =>
        have hmem := Lexeme.ofText?_eq_some_iff.mp hfound
        refine requireSymbol_eq_ok_iff.trans ⟨.form hliteral hmem, fun h => ?_⟩
        cases h with
        | literal h => exact absurd (mem_literalNames_of_firstAt h) hliteral
        | form _ hform h => rwa [Lexeme.eq_of_mem_texts hmem hform]

theorem typeOfText_eq_error_iff {fault : Fault} :
    vocabulary.typeOfText text = .error fault ↔ vocabulary.Untyped text fault := by
  by_cases hliteral : inQuotes text ∈ vocabulary.literalNames
  · rw [typeOfText_of_literal (mem_literalNames_iff.mp hliteral)]
    refine iff_of_false (by simp) fun h => ?_
    cases h with
    | formless hno _ => exact hno hliteral
    | symbolless hno _ _ => exact hno hliteral
  · rw [typeOfText_eq hliteral]
    cases hfound : Lexeme.ofText? text with
    | none =>
        have hnone := Lexeme.ofText?_eq_none_iff.mp hfound
        constructor
        · rintro ⟨⟩
          exact .formless hliteral hnone
        · intro h
          cases h with
          | formless _ _ => rfl
          | symbolless _ hform _ => exact absurd hform (hnone _)
    | some found =>
        have hmem := Lexeme.ofText?_eq_some_iff.mp hfound
        refine requireSymbol_eq_error_iff.trans ⟨?_, fun h => ?_⟩
        · rintro ⟨hsymbol, rfl⟩
          exact .symbolless hliteral hmem hsymbol
        · cases h with
          | formless _ hform => exact absurd hmem (hform found)
          | symbolless _ hform hsymbol =>
              rw [Lexeme.eq_of_mem_texts hmem hform]
              exact ⟨hsymbol, rfl⟩

theorem token_eq_ok_iff {token : Token} :
    vocabulary.token text none = .ok token ↔
      ∃ type : Nat, vocabulary.TextType text type ∧ token = ⟨type, text⟩ := by
  constructor
  · intro h
    obtain ⟨type, htype, rfl⟩ := typeOfText_of_token h
    exact ⟨type, typeOfText_eq_ok_iff.mp htype, rfl⟩
  · rintro ⟨type, htype, rfl⟩
    rw [token_eq_map, typeOfText_eq_ok_iff.mpr htype]
    rfl

theorem token_eq_error_iff {fault : Fault} :
    vocabulary.token text none = .error fault ↔ vocabulary.Untyped text fault := by
  rw [token_eq_map, ← typeOfText_eq_error_iff]
  cases vocabulary.typeOfText text <;> simp [Except.map]

theorem TextType.le_maxTokenType {type : Nat} (h : vocabulary.TextType text type) :
    1 ≤ type ∧ (type : Int) ≤ vocabulary.maxTokenType := by
  have hsize : 1 ≤ type ∧ type < vocabulary.size := by
    cases h with
    | literal h => exact ⟨h.1.1, Nat.lt_of_lt_of_le h.lt_size (Nat.le_max_left _ _)⟩
    | form _ _ h => exact ⟨h.1.1, Nat.lt_of_lt_of_le h.lt_size (Nat.le_max_right _ _)⟩
  rw [maxTokenType]
  omega

/-- In every vocabulary a text becomes a token exactly as it has to: a literal gets the number of
its name, any other text the number of the symbol of its form. It is refused exactly if it has
neither, or if the vocabulary does not have the symbol. No text has two forms, and no token gets
a number that the vocabulary does not reach. -/
theorem token_exact (vocabulary : Vocabulary) (text : String) :
    (∀ token, vocabulary.token text none = .ok token ↔
      ∃ type : Nat, vocabulary.TextType text type ∧ token = ⟨type, text⟩) ∧
    (∀ fault, vocabulary.token text none = .error fault ↔ vocabulary.Untyped text fault) ∧
    (∀ form other : Lexeme, text.toList ∈ form.texts → text.toList ∈ other.texts →
      form = other) ∧
    ∀ token, vocabulary.token text none = .ok token →
      1 ≤ token.type ∧ token.type ≤ vocabulary.maxTokenType := by
  refine ⟨fun _ => token_eq_ok_iff, fun _ => token_eq_error_iff, fun _ _ => Lexeme.eq_of_mem_texts,
    fun token h => ?_⟩
  obtain ⟨type, htype, rfl⟩ := token_eq_ok_iff.mp h
  obtain ⟨hone, hmax⟩ := htype.le_maxTokenType
  exact ⟨Int.ofNat_le.mpr hone, hmax⟩

/-- The number is a literal without its line feed, and with it the second symbol of its form is not
reached. -/
theorem token_exact_hexNumber :
    let vocabulary := Vocabulary.ofNames [none, some "'0x1F'"]
      [none, some "Identifier", some "HexNumber", some "HexNumber"]
    vocabulary.token "0x1F" none = .ok ⟨1, "0x1F"⟩ ∧
    vocabulary.token "0x1F\n" none = .ok ⟨2, "0x1F\n"⟩ ∧
    vocabulary.token "0x1F_" none = .error (.vocabulary (.noTokenType "0x1F_")) ∧
    (2 : Int) ≤ vocabulary.maxTokenType := by
  intro vocabulary
  have hnames : vocabulary.literalNames = ["'0x1F'"] := rfl
  have hliteral : vocabulary.literals.FirstAt (inQuotes "0x1F") 1 :=
    ⟨⟨by decide, rfl⟩, fun _ h => h.1⟩
  have hsymbol : vocabulary.symbols.FirstAt Lexeme.hexNumber.symbol 2 := by
    refine ⟨⟨by decide, rfl⟩, fun k hk => ?_⟩
    by_contra hlt
    obtain rfl : k = 1 := by have hone := hk.1; omega
    exact absurd hk.2 (by decide)
  have hform : "0x1F\n".toList ∈ Lexeme.hexNumber.texts := Lexeme.accepts_iff.mp (by decide)
  have hformless : ∀ form : Lexeme, "0x1F_".toList ∉ form.texts :=
    Lexeme.ofText?_eq_none_iff.mp (by decide)
  obtain ⟨hshort, -⟩ := token_exact vocabulary "0x1F"
  obtain ⟨hlong, -, -, hbounds⟩ := token_exact vocabulary "0x1F\n"
  obtain ⟨-, hrefused, -⟩ := token_exact vocabulary "0x1F_"
  have htoken : vocabulary.token "0x1F\n" none = .ok ⟨2, "0x1F\n"⟩ :=
    (hlong _).mpr ⟨2, .form (by rw [hnames]; decide) hform hsymbol, rfl⟩
  exact ⟨(hshort _).mpr ⟨1, .literal hliteral, rfl⟩, htoken,
    (hrefused _).mpr (.formless (by rw [hnames]; decide) hformless), (hbounds _ htoken).2⟩

end Vocabulary

end SolidityLint
