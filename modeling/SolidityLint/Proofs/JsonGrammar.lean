import Mathlib.Data.List.DropRight
import Mathlib.Data.List.TakeDrop
import SolidityLint.Json.Reader

/-!
# The grammar of JSON, and its reader

What a JSON text is, and what it stands for, is said here without a reader: `Spells`
relates the phrases of the grammar to the texts that spell them. A value can be spelled
in many ways, because blanks may stand around every token and a character of a string
may be escaped, so this is a relation. What it does not leave open is the other
direction: a text spells one value only. That follows from the reader, which is a
function and finds the value of every text that spells one (`Spells.reads`).

The phrases are indices of one relation rather than relations of their own, so that the
induction over a derivation is a single one. The reader does not have a function for
each phrase, but it has one for each that repeats, and `Reads` says for every phrase
what that function has to do with a text that goes on behind the phrase. Two things
may go wrong there. A number could go on, if a digit came next, so what follows a value
must not be able to continue one (`Stops`). And the recursion is bounded, so each phrase
is charged twice its length, which pays for the steps of the reader into it.
-/

namespace SolidityLint.Json

/-! ## Tokens -/

/-- Blanks, or nothing. -/
def Blanks (cs : List Char) : Prop := ∀ c ∈ cs, isBlank c = true

/-- The hexadecimal digit of a number below sixteen, in either case. -/
def IsHex (c : Char) (d : Nat) : Prop :=
  d < 16 ∧ (c = d.digitChar ∨ c = d.digitChar.toUpper)

/-- The four hexadecimal digits of a code unit. -/
inductive HexUnit : List Char → Nat → Prop where
  | mk {a b c d : Char} {w x y z : Nat} (ha : IsHex a w) (hb : IsHex b x) (hc : IsHex c y)
      (hd : IsHex d z) : HexUnit [a, b, c, d] (((w * 16 + x) * 16 + y) * 16 + z)

/-- The characters that are escaped by a letter, each with its letter in front. -/
def letterEscapes : List (Char × Char) :=
  [('"', '"'), ('\\', '\\'), ('/', '/'), ('b', '\x08'), ('f', '\x0c'), ('n', '\n'),
   ('r', '\r'), ('t', '\t')]

/-- How a character can be written in a string: as it is, unless it is a control
character, a quote or a backslash; by a letter; or by its code unit or units. -/
inductive SpellsChar : List Char → Char → Prop where
  | plain {c : Char} (hcontrol : 0x20 ≤ c.toNat) (hquote : c ≠ '"') (hslash : c ≠ '\\') :
      SpellsChar [c] c
  | letter {letter c : Char} (h : (letter, c) ∈ letterEscapes) : SpellsChar ['\\', letter] c
  | unit {digits : List Char} {c : Char} (h : HexUnit digits c.toNat) :
      SpellsChar ('\\' :: 'u' :: digits) c
  | pair {first second : List Char} {high low : Nat} {c : Char} (hfirst : HexUnit first high)
      (hsecond : HexUnit second low) (hhigh : 0xD800 ≤ high ∧ high < 0xDC00)
      (hlow : 0xDC00 ≤ low ∧ low < 0xE000)
      (hc : c.toNat = 0x10000 + (high - 0xD800) * 0x400 + (low - 0xDC00)) :
      SpellsChar ('\\' :: 'u' :: (first ++ '\\' :: 'u' :: second)) c

/-- How characters can be written one after the other. -/
inductive SpellsString : List Char → List Char → Prop where
  | nil : SpellsString [] []
  | cons {piece rest : List Char} {c : Char} {cs : List Char} (h : SpellsChar piece c)
      (hrest : SpellsString rest cs) : SpellsString (piece ++ rest) (c :: cs)

/-- Some digits. -/
def Digits (cs : List Char) : Prop := cs ≠ [] ∧ ∀ c ∈ cs, c.isDigit = true

/-- The whole part of a number, without zeros in front. -/
inductive IsWhole : List Char → Prop where
  | zero : IsWhole ['0']
  | digits {c : Char} {cs : List Char} (hc : c.isDigit = true) (hzero : c ≠ '0')
      (hcs : ∀ d ∈ cs, d.isDigit = true) : IsWhole (c :: cs)

inductive IsFraction : List Char → Prop where
  | absent : IsFraction []
  | digits {cs : List Char} (h : Digits cs) : IsFraction ('.' :: cs)

inductive IsExponent : List Char → Prop where
  | absent : IsExponent []
  | digits {e : Char} {sign cs : List Char} (he : e = 'e' ∨ e = 'E')
      (hsign : sign = [] ∨ sign = ['+'] ∨ sign = ['-']) (h : Digits cs) :
      IsExponent (e :: (sign ++ cs))

inductive IsNumber : List Char → Prop where
  | mk {sign whole fraction exponent : List Char} (hsign : sign = [] ∨ sign = ['-'])
      (hwhole : IsWhole whole) (hfraction : IsFraction fraction)
      (hexponent : IsExponent exponent) : IsNumber (sign ++ (whole ++ (fraction ++ exponent)))

/-! ## Phrases -/

/-- The phrases of the grammar, each with what it stands for. -/
inductive Phrase where
  | value (value : Json)
  /-- A value with blanks around it. This is what a whole text is. -/
  | padded (value : Json)
  /-- The items of an array that is not empty, with the commas between them. -/
  | items (items : List Json)
  /-- The members of an object that is not empty, with the commas between them. -/
  | members (members : List (String × Json))

/-- The texts of a phrase. -/
inductive Spells : Phrase → List Char → Prop where
  | null : Spells (.value .null) ['n', 'u', 'l', 'l']
  | true : Spells (.value (.bool true)) ['t', 'r', 'u', 'e']
  | false : Spells (.value (.bool false)) ['f', 'a', 'l', 's', 'e']
  | number {cs : List Char} (h : IsNumber cs) : Spells (.value (.number (String.ofList cs))) cs
  | string {cs text : List Char} (h : SpellsString cs text) :
      Spells (.value (.string (String.ofList text))) ('"' :: (cs ++ ['"']))
  | emptyArray {blanks : List Char} (h : Blanks blanks) :
      Spells (.value (.array [])) ('[' :: (blanks ++ [']']))
  | array {cs : List Char} {items : List Json} (h : Spells (.items items) cs) :
      Spells (.value (.array items)) ('[' :: (cs ++ [']']))
  | emptyObject {blanks : List Char} (h : Blanks blanks) :
      Spells (.value (.object [])) ('\x7b' :: (blanks ++ ['\x7d']))
  | object {cs : List Char} {members : List (String × Json)} (h : Spells (.members members) cs) :
      Spells (.value (.object members)) ('\x7b' :: (cs ++ ['\x7d']))
  | padded {before cs after : List Char} {value : Json} (hbefore : Blanks before)
      (h : Spells (.value value) cs) (hafter : Blanks after) :
      Spells (.padded value) (before ++ (cs ++ after))
  | lastItem {cs : List Char} {value : Json} (h : Spells (.padded value) cs) :
      Spells (.items [value]) cs
  | item {cs rest : List Char} {value : Json} {items : List Json}
      (h : Spells (.padded value) cs) (hrest : Spells (.items items) rest) :
      Spells (.items (value :: items)) (cs ++ ',' :: rest)
  | lastMember {before key name between cs : List Char} {value : Json} (hbefore : Blanks before)
      (hkey : SpellsString key name) (hbetween : Blanks between)
      (h : Spells (.padded value) cs) :
      Spells (.members [(String.ofList name, value)])
        (before ++ '"' :: (key ++ '"' :: (between ++ ':' :: cs)))
  | member {before key name between cs rest : List Char} {value : Json}
      {members : List (String × Json)} (hbefore : Blanks before) (hkey : SpellsString key name)
      (hbetween : Blanks between) (h : Spells (.padded value) cs)
      (hrest : Spells (.members members) rest) :
      Spells (.members ((String.ofList name, value) :: members))
        (before ++ '"' :: (key ++ '"' :: (between ++ ':' :: (cs ++ ',' :: rest))))

/-! ## Reading strings -/

theorem hexValue?_eq_some {c : Char} {d : Nat} (h : IsHex c d) : hexValue? c = some d := by
  have hall : ∀ d < 16, hexValue? d.digitChar = some d ∧
      hexValue? d.digitChar.toUpper = some d := by decide
  obtain ⟨hd, rfl | rfl⟩ := h
  · exact (hall d hd).1
  · exact (hall d hd).2

theorem readHex?_eq_some {digits : List Char} {n : Nat} (h : HexUnit digits n) :
    ∃ a b c d, digits = [a, b, c, d] ∧ readHex? 0 [a, b, c, d] = some n := by
  cases h with
  | @mk a b c d w x y z ha hb hc hd =>
      refine ⟨a, b, c, d, rfl, ?_⟩
      simp only [readHex?, hexValue?_eq_some ha, hexValue?_eq_some hb, hexValue?_eq_some hc,
        hexValue?_eq_some hd, Option.bind_some, Option.some.injEq]
      omega

theorem letterCode?_eq_some {letter c : Char} (h : (letter, c) ∈ letterEscapes) :
    letter ≠ 'u' ∧ letterCode? letter = some c.toNat := by
  have hall : ∀ p ∈ letterEscapes, p.1 ≠ 'u' ∧ letterCode? p.1 = some p.2.toNat := by decide
  exact hall (letter, c) h

theorem scalar?_toNat (c : Char) : scalar? c.toNat = some c := by
  have hvalid : c.toNat.isValidChar := c.valid
  rw [scalar?, dif_pos hvalid]
  rfl

theorem joinCodes?_cons (c : Char) {codes : List Nat} {cs : List Char}
    (h : joinCodes? codes = some cs) : joinCodes? (c.toNat :: codes) = some (c :: cs) := by
  have hvalid : c.toNat.isValidChar := c.valid
  cases codes with
  | nil =>
      cases h
      rw [joinCodes?, scalar?_toNat]
      rfl
  | cons next rest =>
      have hno : ¬ (0xD800 ≤ c.toNat ∧ c.toNat < 0xDC00 ∧ 0xDC00 ≤ next ∧ next < 0xE000) := by
        simp only [Nat.isValidChar] at hvalid
        omega
      rw [joinCodes?, if_neg hno, scalar?_toNat, h]
      rfl

theorem joinCodes?_pair {codes : List Nat} {cs : List Char} (h : joinCodes? codes = some cs)
    {c : Char} {high low : Nat} (hhigh : 0xD800 ≤ high ∧ high < 0xDC00)
    (hlow : 0xDC00 ≤ low ∧ low < 0xE000)
    (hc : c.toNat = 0x10000 + (high - 0xD800) * 0x400 + (low - 0xDC00)) :
    joinCodes? (high :: low :: codes) = some (c :: cs) := by
  rw [joinCodes?, if_pos ⟨hhigh.1, hhigh.2, hlow⟩, ← hc, scalar?_toNat, h]
  rfl

/-- A spelled character adds its code units to those that are read, and those join to it. -/
theorem SpellsChar.reads {piece : List Char} {c : Char} (h : SpellsChar piece c) :
    ∃ units, (∀ rest codes after, readCodes? rest = some (codes, after) →
        readCodes? (piece ++ rest) = some (units ++ codes, after)) ∧
      ∀ codes cs, joinCodes? codes = some cs → joinCodes? (units ++ codes) = some (c :: cs) := by
  cases h with
  | plain hcontrol hquote hslash =>
      refine ⟨[c.toNat], fun rest codes after hrest => ?_, fun _ _ => joinCodes?_cons c⟩
      rw [List.singleton_append, readCodes?, if_neg (by simp only [hslash, or_false]; omega), hrest]
      · rfl
      all_goals simp_all
  | @letter letter _ hmem =>
      refine ⟨[c.toNat], fun rest codes after hrest => ?_, fun _ _ => joinCodes?_cons c⟩
      obtain ⟨hu, hcode⟩ := letterCode?_eq_some hmem
      simp only [List.cons_append, List.nil_append]
      rw [readCodes?, hcode, hrest]
      · rfl
      · rintro _ _ _ _ _ rfl
        exact (hu rfl).elim
  | unit hdigits =>
      refine ⟨[c.toNat], fun rest codes after hrest => ?_, fun _ _ => joinCodes?_cons c⟩
      obtain ⟨_, _, _, _, rfl, hvalue⟩ := readHex?_eq_some hdigits
      simp only [List.cons_append, List.nil_append]
      rw [readCodes?, hvalue, hrest]
      rfl
  | @pair _ _ high low _ hfirst hsecond hhigh hlow hc =>
      refine ⟨[high, low], fun rest codes after hrest => ?_,
        fun codes cs hcs => joinCodes?_pair hcs hhigh hlow hc⟩
      obtain ⟨_, _, _, _, rfl, hvalue⟩ := readHex?_eq_some hfirst
      obtain ⟨_, _, _, _, rfl, hvalue'⟩ := readHex?_eq_some hsecond
      simp only [List.cons_append, List.nil_append]
      rw [readCodes?, hvalue, readCodes?, hvalue', hrest]
      rfl

theorem SpellsString.reads {cs text : List Char} (h : SpellsString cs text) (rest : List Char) :
    ∃ codes, readCodes? (cs ++ '"' :: rest) = some (codes, rest) ∧
      joinCodes? codes = some text := by
  induction h with
  | nil => exact ⟨[], by rw [List.nil_append, readCodes?], rfl⟩
  | cons hpiece _ ih =>
      obtain ⟨codes, hcodes, htext⟩ := ih
      obtain ⟨units, hread, hjoin⟩ := hpiece.reads
      exact ⟨units ++ codes, by rw [List.append_assoc]; exact hread _ _ _ hcodes, hjoin _ _ htext⟩

theorem readString?_eq_some {cs text : List Char} (h : SpellsString cs text) (rest : List Char) :
    readString? (cs ++ '"' :: rest) = some (String.ofList text, rest) := by
  obtain ⟨codes, hcodes, htext⟩ := h.reads rest
  simp [readString?, hcodes, htext]

/-! ## Reading numbers -/

/-- What a number cannot go on with. -/
def Stops (rest : List Char) : Prop :=
  ∀ c, rest.head? = some c → c.isDigit = false ∧ c ≠ '.' ∧ c ≠ 'e' ∧ c ≠ 'E'

theorem Stops.cons {c : Char} (hdigit : c.isDigit = false) (hdot : c ≠ '.') (he : c ≠ 'e')
    (hE : c ≠ 'E') (rest : List Char) : Stops (c :: rest) := by
  intro d hd
  cases hd
  exact ⟨hdigit, hdot, he, hE⟩

theorem Stops.delimiter {c : Char} (hc : c = ',' ∨ c = ']' ∨ c = '\x7d') (rest : List Char) :
    Stops (c :: rest) := by
  obtain rfl | rfl | rfl := hc
  all_goals exact .cons rfl (by decide) (by decide) (by decide) rest

theorem spanDigits_append {digits rest : List Char} (h : ∀ c ∈ digits, c.isDigit = true)
    (hrest : ∀ c, rest.head? = some c → c.isDigit = false) :
    spanDigits (digits ++ rest) = (digits, rest) := by
  rw [spanDigits, List.span_eq_takeWhile_dropWhile, List.takeWhile_append_of_pos h,
    List.dropWhile_append_of_pos h]
  cases rest with
  | nil => simp
  | cons c rest => simp [hrest c rfl]

theorem readWhole?_eq_some {whole rest : List Char} (h : IsWhole whole)
    (hrest : ∀ c, rest.head? = some c → c.isDigit = false) :
    readWhole? (whole ++ rest) = some (whole, rest) := by
  cases h with
  | zero => rw [List.singleton_append, readWhole?]
  | @digits c cs hc hzero hcs =>
      have hall : ∀ d ∈ c :: cs, d.isDigit = true := List.forall_mem_cons.mpr ⟨hc, hcs⟩
      have hspan := spanDigits_append hall hrest
      rw [readWhole?, hspan]
      rintro _ heq
      exact hzero (List.cons.inj heq).1

theorem readFraction?_eq_some {fraction rest : List Char} (h : IsFraction fraction)
    (hrest : ∀ c, rest.head? = some c → c.isDigit = false ∧ c ≠ '.') :
    readFraction? (fraction ++ rest) = some (fraction, rest) := by
  cases h with
  | absent =>
      rw [List.nil_append, readFraction?]
      rintro _ rfl
      exact (hrest '.' rfl).2 rfl
  | @digits cs hcs =>
      obtain ⟨c, cs, rfl⟩ := List.exists_cons_of_ne_nil hcs.1
      rw [List.cons_append, readFraction?, spanDigits_append hcs.2 fun d hd => (hrest d hd).1]

theorem readSign_append {sign digits rest : List Char}
    (hsign : sign = [] ∨ sign = ['+'] ∨ sign = ['-']) (h : Digits digits) :
    readSign (sign ++ (digits ++ rest)) = (sign, digits ++ rest) := by
  obtain ⟨c, cs, rfl⟩ := List.exists_cons_of_ne_nil h.1
  have hc : c.isDigit = true := h.2 c List.mem_cons_self
  obtain rfl | rfl | rfl := hsign
  · rw [List.nil_append, List.cons_append, readSign] <;>
      · rintro _ heq
        rw [(List.cons.inj heq).1] at hc
        exact absurd hc (by decide)
  · rfl
  · rfl

theorem readExponent?_eq_some {exponent rest : List Char} (h : IsExponent exponent)
    (hrest : Stops rest) : readExponent? (exponent ++ rest) = some (exponent, rest) := by
  cases h with
  | absent =>
      cases rest with
      | nil => rfl
      | cons c rest =>
          obtain ⟨-, -, he, hE⟩ := hrest c rfl
          rw [List.nil_append, readExponent?, if_neg (not_or.mpr ⟨he, hE⟩)]
  | @digits e sign cs he hsign hcs =>
      have hspan := spanDigits_append hcs.2 fun d hd => (hrest d hd).1
      obtain ⟨c, cs, rfl⟩ := List.exists_cons_of_ne_nil hcs.1
      rw [List.cons_append, List.append_assoc, readExponent?, if_pos he,
        readSign_append hsign hcs]
      simp only [hspan, ← List.cons_append]

theorem IsExponent.head {exponent rest : List Char} (h : IsExponent exponent)
    (hrest : Stops rest) (c : Char) (hc : (exponent ++ rest).head? = some c) :
    c.isDigit = false ∧ c ≠ '.' := by
  cases h with
  | absent => exact ⟨(hrest c hc).1, (hrest c hc).2.1⟩
  | digits he _ _ =>
      cases hc
      obtain rfl | rfl := he <;> decide

theorem IsFraction.head {fraction rest : List Char} (h : IsFraction fraction)
    (hrest : ∀ c, rest.head? = some c → c.isDigit = false ∧ c ≠ '.') (c : Char)
    (hc : (fraction ++ rest).head? = some c) : c.isDigit = false := by
  cases h with
  | absent => exact (hrest c hc).1
  | digits _ =>
      cases hc
      rfl

theorem IsNumber.head {cs : List Char} (h : IsNumber cs) :
    ∃ c tail, cs = c :: tail ∧ (c = '-' ∨ c.isDigit = true) := by
  cases h with
  | mk hsign hwhole _ _ =>
      obtain rfl | rfl := hsign
      · cases hwhole with
        | zero => exact ⟨_, _, rfl, .inr rfl⟩
        | digits hc _ _ => exact ⟨_, _, rfl, .inr hc⟩
      · exact ⟨_, _, rfl, .inl rfl⟩

theorem readNumber?_eq_some {cs rest : List Char} (h : IsNumber cs) (hrest : Stops rest) :
    readNumber? (cs ++ rest) = some (.number (String.ofList cs), rest) := by
  cases h with
  | @mk sign whole fraction exponent hsign hwhole hfraction hexponent =>
      have hread := readWhole?_eq_some hwhole (hfraction.head (hexponent.head hrest))
      have hread' := readFraction?_eq_some hfraction (hexponent.head hrest)
      obtain rfl | rfl := hsign
      · -- The reader looks for a minus first, and the whole part does not begin with one.
        have hminus : ∀ tail, whole ++ (fraction ++ (exponent ++ rest)) ≠ '-' :: tail := by
          intro tail heq
          cases hwhole with
          | zero => cases heq
          | digits hc _ _ =>
              cases heq
              cases hc
        simp [readNumber?, hread, hread', readExponent?_eq_some hexponent hrest]
      · simp [readNumber?, hread, hread', readExponent?_eq_some hexponent hrest]

/-! ## Reading values -/

theorem isBlank_cases {c : Char} (h : isBlank c = true) :
    c = ' ' ∨ c = '\n' ∨ c = '\r' ∨ c = '\t' := by
  simpa only [isBlank, Bool.or_eq_true, beq_iff_eq, or_assoc] using h

theorem Stops.blanks {after rest : List Char} (h : Stops rest) (hafter : Blanks after) :
    Stops (after ++ rest) := by
  cases after with
  | nil => exact h
  | cons c after =>
      obtain rfl | rfl | rfl | rfl := isBlank_cases (hafter c List.mem_cons_self)
      all_goals exact .cons rfl (by decide) (by decide) (by decide) _

theorem skipBlanks_append {blanks : List Char} (h : Blanks blanks) (rest : List Char) :
    skipBlanks (blanks ++ rest) = skipBlanks rest :=
  List.dropWhile_append_of_pos h

theorem skipBlanks_eq_self {c : Char} (h : isBlank c = false) (rest : List Char) :
    skipBlanks (c :: rest) = c :: rest :=
  List.dropWhile_cons_of_neg (by simp [h])

theorem skipBlanks_skipBlanks (cs : List Char) : skipBlanks (skipBlanks cs) = skipBlanks cs :=
  List.dropWhile_idempotent _ cs

theorem readValue?_skipBlanks (bound : Nat) (cs : List Char) :
    readValue? bound (skipBlanks cs) = readValue? bound cs := by
  cases bound with
  | zero => rw [readValue?, readValue?]
  | succ bound => rw [readValue?, readValue?, skipBlanks_skipBlanks]

theorem readItems?_skipBlanks (bound : Nat) (cs : List Char) :
    readItems? bound (skipBlanks cs) = readItems? bound cs := by
  cases bound with
  | zero => rw [readItems?, readItems?]
  | succ bound => rw [readItems?, readItems?, readValue?_skipBlanks]

theorem readMembers?_skipBlanks (bound : Nat) (cs : List Char) :
    readMembers? bound (skipBlanks cs) = readMembers? bound cs := by
  cases bound with
  | zero => rw [readMembers?, readMembers?]
  | succ bound => rw [readMembers?, readMembers?, skipBlanks_skipBlanks]

/-! One step of the reader at each token that says what comes next. -/

theorem readValue?_quote (bound : Nat) (cs : List Char) :
    readValue? (bound + 1) ('"' :: cs) =
      (readString? cs).bind fun (text, rest) => some (.string text, rest) := by
  rw [readValue?, skipBlanks_eq_self rfl]
  rfl

theorem readValue?_bracket (bound : Nat) (cs : List Char) :
    readValue? (bound + 1) ('[' :: cs) =
      match skipBlanks cs with
      | ']' :: rest => some (.array [], rest)
      | rest => (readItems? bound rest).bind fun (items, rest) => some (.array items, rest) := by
  rw [readValue?, skipBlanks_eq_self rfl]
  rfl

theorem readValue?_brace (bound : Nat) (cs : List Char) :
    readValue? (bound + 1) ('\x7b' :: cs) =
      match skipBlanks cs with
      | '\x7d' :: rest => some (.object [], rest)
      | rest =>
        (readMembers? bound rest).bind fun (members, rest) => some (.object members, rest) := by
  rw [readValue?, skipBlanks_eq_self rfl]
  rfl

theorem readItems?_bracket (bound : Nat) (rest : List Char) :
    readItems? bound (']' :: rest) = none := by
  cases bound with
  | zero => rw [readItems?]
  | succ bound =>
      have hvalue : readValue? bound (']' :: rest) = none := by
        cases bound with
        | zero => rw [readValue?]
        | succ bound =>
            rw [readValue?, skipBlanks_eq_self rfl]
            rfl
      rw [readItems?, hvalue]
      rfl

theorem readMembers?_brace (bound : Nat) (rest : List Char) :
    readMembers? bound ('\x7d' :: rest) = none := by
  cases bound with
  | zero => rw [readMembers?]
  | succ bound =>
      rw [readMembers?, skipBlanks_eq_self rfl]
      rfl

theorem readValue?_array {bound : Nat} {cs rest : List Char} {items : List Json}
    (h : readItems? bound cs = some (items, rest)) :
    readValue? (bound + 1) ('[' :: cs) = some (.array items, rest) := by
  rw [← readItems?_skipBlanks] at h
  rw [readValue?_bracket]
  split
  · next heq =>
      rw [heq, readItems?_bracket] at h
      cases h
  · rw [h]
    rfl

theorem readValue?_object {bound : Nat} {cs rest : List Char} {members : List (String × Json)}
    (h : readMembers? bound cs = some (members, rest)) :
    readValue? (bound + 1) ('\x7b' :: cs) = some (.object members, rest) := by
  rw [← readMembers?_skipBlanks] at h
  rw [readValue?_brace]
  split
  · next heq =>
      rw [heq, readMembers?_brace] at h
      cases h
  · rw [h]
    rfl

theorem readItems?_step {bound : Nat} {cs after rest : List Char} {value : Json}
    (h : readValue? bound cs = some (value, after ++ rest)) (hafter : Blanks after) :
    readItems? (bound + 1) cs =
      match skipBlanks rest with
      | ',' :: rest =>
        (readItems? bound rest).bind fun (items, rest) => some (value :: items, rest)
      | ']' :: rest => some ([value], rest)
      | _ => none := by
  rw [readItems?, h, ← skipBlanks_append hafter]
  rfl

theorem readMembers?_step {bound : Nat} {before key name between cs after rest : List Char}
    {value : Json} (hbefore : Blanks before) (hkey : SpellsString key name)
    (hbetween : Blanks between) (h : readValue? bound cs = some (value, after ++ rest))
    (hafter : Blanks after) :
    readMembers? (bound + 1) (before ++ '"' :: (key ++ '"' :: (between ++ ':' :: cs))) =
      match skipBlanks rest with
      | ',' :: rest => (readMembers? bound rest).bind fun (members, rest) =>
        some ((String.ofList name, value) :: members, rest)
      | '\x7d' :: rest => some ([(String.ofList name, value)], rest)
      | _ => none := by
  rw [readMembers?, skipBlanks_append hbefore, skipBlanks_eq_self rfl]
  show (readString? _).bind _ = _
  rw [readString?_eq_some hkey, Option.bind_some]
  dsimp only
  rw [skipBlanks_append hbetween, skipBlanks_eq_self rfl]
  show (readValue? bound cs).bind _ = _
  rw [h, ← skipBlanks_append hafter]
  rfl

theorem readValue?_number {cs rest : List Char} (h : IsNumber cs) (hrest : Stops rest)
    (bound : Nat) :
    readValue? (bound + 1) (cs ++ rest) = some (.number (String.ofList cs), rest) := by
  have hnumber := readNumber?_eq_some h hrest
  obtain ⟨c, tail, rfl, hc⟩ := h.head
  have hblank : isBlank c = false := by
    by_contra hblank
    obtain rfl | rfl | rfl | rfl := isBlank_cases (eq_true_of_ne_false hblank)
    all_goals exact absurd hc (by decide)
  rw [List.cons_append] at hnumber ⊢
  rw [readValue?, skipBlanks_eq_self hblank]
  split
  all_goals first
    | exact hnumber
    | next heq =>
        obtain ⟨rfl, -⟩ := List.cons.inj heq
        exact absurd hc (by decide)

/-- What the reader does with a text of a phrase, and with what follows it. -/
def Reads : Phrase → List Char → Prop
  | .value value, cs => ∀ bound rest, 2 * cs.length ≤ bound → Stops rest →
      readValue? (bound + 1) (cs ++ rest) = some (value, rest)
  | .padded value, cs => ∀ bound rest, 2 * cs.length ≤ bound → Stops rest →
      ∃ after, Blanks after ∧ readValue? (bound + 1) (cs ++ rest) = some (value, after ++ rest)
  | .items items, cs => ∀ bound rest, 2 * cs.length < bound →
      readItems? (bound + 1) (cs ++ ']' :: rest) = some (items, rest)
  | .members members, cs => ∀ bound rest, 2 * cs.length < bound →
      readMembers? (bound + 1) (cs ++ '\x7d' :: rest) = some (members, rest)

theorem Spells.reads {phrase : Phrase} {cs : List Char} (h : Spells phrase cs) :
    Reads phrase cs := by
  induction h with
  | null | true | false => exact fun bound rest _ _ => rfl
  | number h => exact fun bound rest _ hrest => readValue?_number h hrest bound
  | string h =>
      intro bound rest _ _
      rw [List.cons_append, List.append_assoc, readValue?_quote, List.singleton_append,
        readString?_eq_some h]
      rfl
  | emptyArray h =>
      intro bound rest _ _
      rw [List.cons_append, List.append_assoc, readValue?_bracket, skipBlanks_append h,
        List.singleton_append, skipBlanks_eq_self rfl]
      rfl
  | array _ ih =>
      intro bound rest hbound _
      simp only [List.length_cons, List.length_append] at hbound
      obtain ⟨bound, rfl⟩ : ∃ b, bound = b + 1 := ⟨bound - 1, by omega⟩
      rw [List.cons_append, List.append_assoc]
      exact readValue?_array (ih bound rest (by omega))
  | emptyObject h =>
      intro bound rest _ _
      rw [List.cons_append, List.append_assoc, readValue?_brace, skipBlanks_append h,
        List.singleton_append, skipBlanks_eq_self rfl]
      rfl
  | object _ ih =>
      intro bound rest hbound _
      simp only [List.length_cons, List.length_append] at hbound
      obtain ⟨bound, rfl⟩ : ∃ b, bound = b + 1 := ⟨bound - 1, by omega⟩
      rw [List.cons_append, List.append_assoc]
      exact readValue?_object (ih bound rest (by omega))
  | @padded before cs after value hbefore _ hafter ih =>
      intro bound rest hbound hrest
      simp only [List.length_append] at hbound
      refine ⟨after, hafter, ?_⟩
      calc readValue? (bound + 1) ((before ++ (cs ++ after)) ++ rest)
          = readValue? (bound + 1) (before ++ (cs ++ (after ++ rest))) := by
            simp only [List.append_assoc]
        _ = readValue? (bound + 1) (cs ++ (after ++ rest)) := by
            rw [← readValue?_skipBlanks, skipBlanks_append hbefore, readValue?_skipBlanks]
        _ = some (value, after ++ rest) := ih bound _ (by omega) (hrest.blanks hafter)
  | lastItem _ ih =>
      intro bound rest hbound
      obtain ⟨bound, rfl⟩ : ∃ b, bound = b + 1 := ⟨bound - 1, by omega⟩
      obtain ⟨after, hafter, h⟩ := ih bound (']' :: rest) (by omega) (.delimiter (by simp) _)
      rw [readItems?_step h hafter, skipBlanks_eq_self rfl]
      rfl
  | @item cs tail _ _ _ _ ih ihtail =>
      intro bound rest hbound
      simp only [List.length_append, List.length_cons] at hbound
      obtain ⟨bound, rfl⟩ : ∃ b, bound = b + 1 := ⟨bound - 1, by omega⟩
      obtain ⟨after, hafter, h⟩ := ih bound (',' :: (tail ++ ']' :: rest)) (by omega)
        (.delimiter (by simp) _)
      rw [List.append_assoc, List.cons_append, readItems?_step h hafter, skipBlanks_eq_self rfl]
      show (readItems? (bound + 1) _).bind _ = _
      rw [ihtail bound rest (by omega)]
      rfl
  | lastMember hbefore hkey hbetween _ ih =>
      intro bound rest hbound
      simp only [List.length_append, List.length_cons] at hbound
      obtain ⟨bound, rfl⟩ : ∃ b, bound = b + 1 := ⟨bound - 1, by omega⟩
      obtain ⟨after, hafter, h⟩ := ih bound ('\x7d' :: rest) (by omega) (.delimiter (by simp) _)
      simp only [List.append_assoc, List.cons_append]
      rw [readMembers?_step hbefore hkey hbetween h hafter, skipBlanks_eq_self rfl]
      rfl
  | @member _ _ _ _ cs tail _ _ hbefore hkey hbetween _ _ ih ihtail =>
      intro bound rest hbound
      simp only [List.length_append, List.length_cons] at hbound
      obtain ⟨bound, rfl⟩ : ∃ b, bound = b + 1 := ⟨bound - 1, by omega⟩
      obtain ⟨after, hafter, h⟩ := ih bound (',' :: (tail ++ '\x7d' :: rest)) (by omega)
        (.delimiter (by simp) _)
      simp only [List.append_assoc, List.cons_append]
      rw [readMembers?_step hbefore hkey hbetween h hafter, skipBlanks_eq_self rfl]
      show (readMembers? (bound + 1) _).bind _ = _
      rw [ihtail bound rest (by omega)]
      rfl

/-- The reader finds the value of every text that spells one. -/
theorem Spells.parse?_eq_some {text : String} {value : Json}
    (h : Spells (.padded value) text.toList) : parse? text = some value := by
  have hstops : Stops [] := by
    rintro c ⟨⟩
  obtain ⟨after, hafter, hread⟩ := h.reads (2 * text.length + 1) []
    (by rw [String.length_toList]; omega) hstops
  have hskip : skipBlanks (after ++ []) = [] := skipBlanks_append hafter []
  rw [List.append_nil] at hread hskip
  simp [parse?, hread, hskip]

/-- A text spells one value only. -/
theorem Spells.unique {cs : List Char} {value other : Json} (h : Spells (.padded value) cs)
    (hother : Spells (.padded other) cs) : other = value := by
  rw [← String.toList_ofList (l := cs)] at h hother
  exact Option.some.inj (hother.parse?_eq_some.symm.trans h.parse?_eq_some)

end SolidityLint.Json
