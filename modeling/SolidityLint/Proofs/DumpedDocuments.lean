import Mathlib.Logic.Relation
import SolidityLint.Proofs.JsonGrammar
import SolidityLint.Proofs.Links

/-!
# Documents as JSON texts

The text of a document is a JSON text, and it stands for the document and for nothing
else, in every layout. The layouts differ in blanks only, at the places where the grammar
has blanks, so the proof does not follow a layout further than that: `lineStart` is
blanks, and a separator is a comma and blanks. The rest is one induction over the value,
in which the writer puts a text in front of what follows, so that each step finds
the text of a phrase with the remainder untouched behind it (`Written`).

A tree that may be dumped is anything that is built up from tokens and rule nodes.
Nothing is asked of the numbers of its nodes, and nodes may be shared, so there is no
order that bounds the walk. What bounds it is that a node of a tree is not below itself:
the nodes on the way down are different, and there are no more than the forest has.

A wish for an indentation is met if it is a 64-bit number with a sign, however wide the
lines become, and refused otherwise (`Fits`).
-/

namespace SolidityLint

namespace Json

open Text (hexDigits)

/-! ## Strings -/

theorem hexDigits_succ {k : Nat} (hk : 0 < k) (n : Nat) :
    hexDigits (k + 1) n = hexDigits k (n / 16) ++ [(n % 16).digitChar] := by
  rw [hexDigits, hexDigits, Nat.toDigits_eq_if (by decide)]
  by_cases hn : n < 16
  · rw [if_pos hn, Nat.div_eq_of_lt hn, Nat.mod_eq_of_lt hn]
    obtain ⟨k, rfl⟩ := Nat.exists_eq_add_one.mpr hk
    show List.replicate (k + 1) '0' ++ _ = List.replicate k '0' ++ ['0'] ++ _
    rw [List.replicate_succ']
  · rw [if_neg hn]
    simp only [List.length_append, List.length_singleton, Nat.add_sub_add_right,
      List.append_assoc]

theorem hexUnit_hexDigits {n : Nat} (hn : n < 0x10000) : HexUnit (hexDigits 4 n) n := by
  have hone : hexDigits 1 (n / 16 / 16 / 16) = [(n / 16 / 16 / 16).digitChar] := by
    rw [hexDigits, Nat.toDigits_eq_if (by decide), if_pos (by omega)]
    rfl
  rw [hexDigits_succ (by decide), hexDigits_succ (by decide), hexDigits_succ (by decide), hone]
  have hdigit : ∀ {d : Nat}, d < 16 → IsHex d.digitChar d := fun hd => ⟨hd, .inl rfl⟩
  have hunit := HexUnit.mk (hdigit (show n / 16 / 16 / 16 < 16 by omega))
    (hdigit (Nat.mod_lt (n / 16 / 16) (by decide))) (hdigit (Nat.mod_lt (n / 16) (by decide)))
    (hdigit (Nat.mod_lt n (by decide)))
  rwa [Nat.div_add_mod', Nat.div_add_mod', Nat.div_add_mod'] at hunit

theorem spellsChar_pair {c : Char} {high low : Nat} (hhigh : 0xD800 ≤ high ∧ high < 0xDC00)
    (hlow : 0xDC00 ≤ low ∧ low < 0xE000)
    (hc : c.toNat = 0x10000 + (high - 0xD800) * 0x400 + (low - 0xDC00)) :
    SpellsChar (unitEscape high ++ unitEscape low) c :=
  .pair (hexUnit_hexDigits (by omega)) (hexUnit_hexDigits (by omega)) hhigh hlow hc

theorem spellsChar_units (c : Char) : SpellsChar ((codeUnits c).flatMap unitEscape) c := by
  have hvalid : c.toNat.isValidChar := c.valid
  simp only [Nat.isValidChar] at hvalid
  by_cases h : c.toNat < 0x10000
  · rw [codeUnits, if_pos h, List.flatMap_singleton]
    exact .unit (hexUnit_hexDigits h)
  · rw [codeUnits, if_neg h]
    simp only [List.flatMap_cons, List.flatMap_nil, List.append_nil]
    exact spellsChar_pair (by omega) (by omega) (by omega)

theorem spellsChar_writeChar (c : Char) : SpellsChar (writeChar c) c := by
  rw [writeChar]
  split
  · next h => obtain rfl | rfl := h <;> exact .letter (by decide)
  iterate 5
    split
    · next h => exact .letter (by rw [h]; decide)
  split
  · next hmarks _ _ _ _ _ h =>
      obtain ⟨hquote, hslash⟩ := not_or.mp hmarks
      exact .plain h.1 hquote hslash
  · exact spellsChar_units c

theorem spellsString_writeChars (cs : List Char) : SpellsString (cs.flatMap writeChar) cs := by
  induction cs with
  | nil => exact .nil
  | cons c cs ih => exact .cons (spellsChar_writeChar c) ih

/-! ## Layouts -/

theorem Layout.blanks_lineStart (layout : Layout) (depth : Nat) :
    Blanks (layout.lineStart depth) := by
  cases layout with
  | oneLine => exact List.forall_mem_nil _
  | lines step =>
      refine List.forall_mem_cons.mpr ⟨rfl, fun c hc => ?_⟩
      rw [(List.mem_replicate.mp hc).2]
      rfl

theorem Layout.separator_eq (layout : Layout) (depth : Nat) :
    ∃ blanks, Blanks blanks ∧ layout.separator depth = ',' :: blanks := by
  cases layout with
  | oneLine => exact ⟨[' '], List.forall_mem_singleton.mpr rfl, rfl⟩
  | lines step => exact ⟨_, Layout.blanks_lineStart (.lines step) depth, rfl⟩

/-! ## Values -/

/-- A value in which all numbers are written as numbers. -/
inductive WellFormed : Json → Prop where
  | null : WellFormed .null
  | bool (value : Bool) : WellFormed (.bool value)
  | number {digits : String} (h : IsNumber digits.toList) : WellFormed (.number digits)
  | string (text : String) : WellFormed (.string text)
  | array {items : List Json} (h : ∀ item ∈ items, WellFormed item) : WellFormed (.array items)
  | object {members : List (String × Json)} (h : ∀ member ∈ members, WellFormed member.2) :
      WellFormed (.object members)

/-- The writer puts a text that spells the value in front of what follows. -/
def Written (value : Json) : Prop :=
  ∀ layout depth rest, ∃ cs, Spells (.value value) cs ∧ write layout depth value rest = cs ++ rest

theorem spells_items {items : List Json} (hitems : ∀ item ∈ items, Written item) (layout : Layout)
    (depth : Nat) {close : List Char} (hclose : Blanks close) (rest : List Char) :
    ∀ {before cs : List Char} {value : Json}, Blanks before → Spells (.value value) cs →
      ∃ text, Spells (.items (value :: items)) text ∧
        before ++ (cs ++ writeItems layout depth items (close ++ rest)) = text ++ rest := by
  induction items with
  | nil =>
      intro before cs value hbefore hvalue
      exact ⟨_, .lastItem (.padded hbefore hvalue hclose), by simp [writeItems]⟩
  | cons item items ih =>
      intro before cs value hbefore hvalue
      obtain ⟨hitem, hitems⟩ := List.forall_mem_cons.mp hitems
      obtain ⟨blanks, hblanks, hseparator⟩ := layout.separator_eq depth
      obtain ⟨first, hfirst, hwrite⟩ :=
        hitem layout depth (writeItems layout depth items (close ++ rest))
      obtain ⟨text, htext, heq⟩ := ih hitems hblanks hfirst
      refine ⟨_, .item (.padded hbefore hvalue (List.forall_mem_nil _)) htext, ?_⟩
      rw [writeItems, hseparator, hwrite, List.cons_append, heq]
      simp

theorem spells_members {members : List (String × Json)}
    (hmembers : ∀ member ∈ members, Written member.2) (layout : Layout) (depth : Nat)
    {close : List Char} (hclose : Blanks close) (rest : List Char) :
    ∀ {before cs : List Char} {value : Json} (name : String), Blanks before →
      Spells (.value value) cs →
      ∃ text, Spells (.members ((name, value) :: members)) text ∧
        before ++ (writeString name ++ ':' :: ' ' ::
          (cs ++ writeMembers layout depth members (close ++ rest))) = text ++ rest := by
  have hblank : Blanks [' '] := List.forall_mem_singleton.mpr rfl
  induction members with
  | nil =>
      intro before cs value name hbefore hvalue
      have htext := Spells.lastMember hbefore (spellsString_writeChars name.toList)
        (List.forall_mem_nil _) (.padded hblank hvalue hclose)
      rw [String.ofList_toList] at htext
      exact ⟨_, htext, by simp [writeMembers, writeString]⟩
  | cons member members ih =>
      intro before cs value name hbefore hvalue
      obtain ⟨hmember, hmembers⟩ := List.forall_mem_cons.mp hmembers
      obtain ⟨blanks, hblanks, hseparator⟩ := layout.separator_eq depth
      obtain ⟨first, hfirst, hwrite⟩ :=
        hmember layout depth (writeMembers layout depth members (close ++ rest))
      obtain ⟨text, htext, heq⟩ := ih hmembers member.1 hblanks hfirst
      have htext := Spells.member hbefore (spellsString_writeChars name.toList)
        (List.forall_mem_nil _) (.padded hblank hvalue (List.forall_mem_nil _)) htext
      rw [String.ofList_toList] at htext
      refine ⟨_, htext, ?_⟩
      rw [writeMembers, hseparator, hwrite, List.cons_append, heq]
      simp [writeString]

theorem WellFormed.written {value : Json} (h : value.WellFormed) : Written value := by
  induction h with
  | null => exact fun _ _ _ => ⟨_, .null, by rw [write]; rfl⟩
  | bool value =>
      cases value with
      | false => exact fun _ _ _ => ⟨_, .false, by rw [write]; rfl⟩
      | true => exact fun _ _ _ => ⟨_, .true, by rw [write]; rfl⟩
  | @number digits h =>
      intro layout depth rest
      have hspells := Spells.number h
      rw [String.ofList_toList] at hspells
      exact ⟨_, hspells, by rw [write]⟩
  | string text =>
      intro layout depth rest
      have hspells := Spells.string (spellsString_writeChars text.toList)
      rw [String.ofList_toList] at hspells
      exact ⟨_, hspells, by rw [write]; rfl⟩
  | @array items _ ih =>
      intro layout depth rest
      cases items with
      | nil => exact ⟨_, .emptyArray (List.forall_mem_nil _), by rw [write]; rfl⟩
      | cons item items =>
          obtain ⟨hitem, hitems⟩ := List.forall_mem_cons.mp ih
          obtain ⟨first, hfirst, hwrite⟩ := hitem layout (depth + 1)
            (writeItems layout (depth + 1) items (layout.lineStart depth ++ ']' :: rest))
          obtain ⟨text, htext, heq⟩ := spells_items hitems layout (depth + 1)
            (layout.blanks_lineStart depth) (']' :: rest) (layout.blanks_lineStart (depth + 1))
            hfirst
          refine ⟨_, .array htext, ?_⟩
          rw [write, hwrite, heq]
          simp
  | @object members _ ih =>
      intro layout depth rest
      cases members with
      | nil => exact ⟨_, .emptyObject (List.forall_mem_nil _), by rw [write]; rfl⟩
      | cons member members =>
          obtain ⟨hmember, hmembers⟩ := List.forall_mem_cons.mp ih
          obtain ⟨first, hfirst, hwrite⟩ := hmember layout (depth + 1)
            (writeMembers layout (depth + 1) members (layout.lineStart depth ++ '\x7d' :: rest))
          obtain ⟨text, htext, heq⟩ := spells_members hmembers layout (depth + 1)
            (layout.blanks_lineStart depth) ('\x7d' :: rest) member.1
            (layout.blanks_lineStart (depth + 1)) hfirst
          refine ⟨_, .object htext, ?_⟩
          rw [write, hwrite, heq]
          simp

/-- A text spells a value and no other, and the reader finds it. -/
structure Encodes (text : String) (value : Json) : Prop where
  spells_iff : ∀ other, Spells (.padded other) text.toList ↔ other = value
  parse?_eq : parse? text = some value

theorem WellFormed.encodes {value : Json} (h : value.WellFormed) (layout : Layout) :
    Encodes (value.render layout) value := by
  have hspells : Spells (.padded value) (value.render layout).toList := by
    obtain ⟨cs, hcs, hwrite⟩ := h.written layout 0 []
    rw [render, String.toList_ofList, hwrite]
    exact .padded (List.forall_mem_nil _) hcs (List.forall_mem_nil _)
  refine ⟨fun other => ⟨fun hother => hspells.unique hother, ?_⟩, hspells.parse?_eq_some⟩
  rintro rfl
  exact hspells

end Json

/-! ## Documents -/

namespace Document

mutual

theorem wellFormed_toJson : ∀ document : Document, document.toJson.WellFormed
  | .rule type children => by
      rw [toJson]
      refine .object (List.forall_mem_cons.mpr ⟨.string type, List.forall_mem_singleton.mpr ?_⟩)
      exact .array (wellFormed_toJsonAll children)
  | .token type text erroneous => by
      rw [toJson]
      refine .object (List.forall_mem_append.mpr ⟨?_, ?_⟩)
      · exact List.forall_mem_cons.mpr ⟨.string type, List.forall_mem_singleton.mpr (.string text)⟩
      · cases erroneous with
        | false => exact List.forall_mem_nil _
        | true => exact List.forall_mem_singleton.mpr (.bool true)

theorem wellFormed_toJsonAll : ∀ documents : List Document,
    ∀ value ∈ toJsonAll documents, value.WellFormed
  | [] => by
      rw [toJsonAll]
      exact List.forall_mem_nil _
  | document :: rest => by
      rw [toJsonAll]
      exact List.forall_mem_cons.mpr ⟨wellFormed_toJson document, wellFormed_toJsonAll rest⟩

end

theorem encodes_render (document : Document) (layout : Json.Layout) :
    Json.Encodes (document.render layout) document.toJson :=
  document.wellFormed_toJson.encodes layout

/-- The wishes for an indentation that are met. -/
def Fits : Option Int → Prop
  | none => True
  | some step => -0x8000000000000000 ≤ step ∧ step < 0x8000000000000000

theorem layout_eq_ok {indent : Option Int} (h : Fits indent) : ∃ l, layout indent = .ok l := by
  cases indent with
  | none => exact ⟨_, rfl⟩
  | some step =>
      obtain ⟨hlow, hhigh⟩ := h
      rw [layout, if_neg (by omega)]
      exact ⟨_, rfl⟩

theorem layout_eq_error {indent : Option Int} (h : ¬ Fits indent) :
    layout indent = .error .indentOutOfRange := by
  cases indent with
  | none => exact absurd trivial h
  | some step =>
      rw [Fits] at h
      rw [layout, if_pos (by omega)]

theorem encodes_dump {document : Document} {indent : Option Int} {text : String}
    (h : document.dump indent = .ok text) : Json.Encodes text document.toJson := by
  rw [dump] at h
  cases hlayout : layout indent with
  | error fault =>
      rw [hlayout] at h
      cases h
  | ok l =>
      rw [hlayout] at h
      cases h
      exact document.encodes_render l

theorem dump_eq_ok (document : Document) {indent : Option Int} (h : Fits indent) :
    ∃ text, document.dump indent = .ok text := by
  obtain ⟨l, hl⟩ := layout_eq_ok h
  exact ⟨document.render l, by rw [dump, hl]; rfl⟩

theorem dump_eq_error (document : Document) {indent : Option Int} (h : ¬ Fits indent) :
    document.dump indent = .error .indentOutOfRange := by
  rw [dump, layout_eq_error h]
  rfl

end Document

/-! ## Trees -/

namespace Forest

/-- A node with a tree below it: there is nothing but tokens and rule nodes in it. -/
inductive Tree (forest : Forest) : NodeId → Prop where
  | token {n : NodeId} {token : Token} {erroneous : Bool}
      (h : forest.label? n = some (.token token erroneous)) : Tree forest n
  | rule {n : NodeId} {label : RuleLabel} (h : forest.label? n = some (.rule label))
      (children : ∀ c ∈ forest.children n, Tree forest c) : Tree forest n

/-- A step down from a rule node. -/
def Descends (forest : Forest) (p c : NodeId) : Prop :=
  forest.isRule p = true ∧ c ∈ forest.children p

theorem Tree.lt_size {forest : Forest} {n : NodeId} (h : forest.Tree n) : n < forest.size := by
  cases h with
  | token h => exact lt_size_of_label? h
  | rule h _ => exact lt_size_of_label? h

theorem Tree.acyclic {forest : Forest} {n : NodeId} (h : forest.Tree n) :
    ¬ Relation.TransGen forest.Descends n n := by
  induction h with
  | token h =>
      intro hcycle
      obtain ⟨c, ⟨hrule, -⟩, -⟩ := Relation.TransGen.head'_iff.mp hcycle
      obtain ⟨label, hlabel⟩ := isRule_iff.mp hrule
      rw [h] at hlabel
      cases hlabel
  | rule _ _ ih =>
      -- A circle through the node is a circle through its child on it.
      intro hcycle
      obtain ⟨c, hstep, hback⟩ := Relation.TransGen.head'_iff.mp hcycle
      exact ih c hstep.2 (Relation.TransGen.tail' hback hstep)

/-- Different nodes that a walk down has met and does not come back to from a node. -/
structure Passed (forest : Forest) (n : NodeId) (met : List NodeId) : Prop where
  nodup : met.Nodup
  lt_size : ∀ m ∈ met, m < forest.size
  not_below : ∀ m ∈ met, ¬ Relation.ReflTransGen forest.Descends n m

theorem Passed.length_lt {forest : Forest} {n : NodeId} {met : List NodeId}
    (h : Passed forest n met) (hn : n < forest.size) : met.length < forest.size := by
  have hmem : n ∉ met := fun hmem => h.not_below n hmem .refl
  exact length_le_size (List.nodup_cons.mpr ⟨hmem, h.nodup⟩)
    (List.forall_mem_cons.mpr ⟨hn, h.lt_size⟩)

theorem Passed.step {forest : Forest} {n c : NodeId} {met : List NodeId}
    (h : Passed forest n met) (hn : forest.Tree n) (hstep : forest.Descends n c) :
    Passed forest c (n :: met) where
  nodup := List.nodup_cons.mpr ⟨fun hmem => h.not_below n hmem .refl, h.nodup⟩
  lt_size := List.forall_mem_cons.mpr ⟨hn.lt_size, h.lt_size⟩
  not_below := List.forall_mem_cons.mpr
    ⟨fun hback => hn.acyclic (Relation.TransGen.head' hstep hback),
      fun m hm hbelow => h.not_below m hm (.head hstep hbelow)⟩

theorem Tree.documentWithin_ok {forest : Forest} {n : NodeId} (h : forest.Tree n)
    (vocabulary : Vocabulary) {depth : Nat} {met : List NodeId} (hpassed : Passed forest n met)
    (hdepth : forest.size ≤ depth + met.length) :
    ∃ document, forest.documentWithin vocabulary depth n = .ok document := by
  induction h generalizing depth met with
  | @token n token erroneous h =>
      have hlt := hpassed.length_lt (Tree.token h).lt_size
      obtain ⟨depth, rfl⟩ : ∃ d, depth = d + 1 := ⟨depth - 1, by omega⟩
      rw [documentWithin, h]
      exact ⟨_, rfl⟩
  | @rule n label h children ih =>
      have htree : forest.Tree n := .rule h children
      have hlt := hpassed.length_lt htree.lt_size
      obtain ⟨depth, rfl⟩ : ∃ d, depth = d + 1 := ⟨depth - 1, by omega⟩
      have hrule : forest.isRule n = true := isRule_iff.mpr ⟨label, h⟩
      have hchildren : ∀ c ∈ forest.children n,
          ∃ document, forest.documentWithin vocabulary depth c = .ok document := fun c hc =>
        ih c hc (hpassed.step htree ⟨hrule, hc⟩) (by rw [List.length_cons]; omega)
      obtain ⟨documents, hdocuments⟩ := mapM_ok hchildren
      rw [documentWithin, h]
      simp only [hdocuments]
      exact ⟨.rule label.ruleName documents, rfl⟩

theorem Tree.document_ok {forest : Forest} {n : NodeId} (h : forest.Tree n)
    (vocabulary : Vocabulary) : ∃ document, forest.document vocabulary n = .ok document :=
  h.documentWithin_ok vocabulary ⟨List.nodup_nil, List.forall_mem_nil _, List.forall_mem_nil _⟩
    (Nat.le_refl _)

/-- What has a document has a text: both walks go the same way. -/
theorem textWithin_ok_of_documentWithin {forest : Forest} {vocabulary : Vocabulary} {depth : Nat} :
    ∀ {n : NodeId} {document : Document}, forest.documentWithin vocabulary depth n = .ok document →
      ∃ text, forest.textWithin depth n = .ok text := by
  induction depth with
  | zero => intro n document h; cases h
  | succ depth ih =>
      intro n document h
      rw [documentWithin] at h
      rw [textWithin]
      cases hlabel : forest.label? n with
      | none => rw [hlabel] at h; cases h
      | some label =>
          rw [hlabel] at h
          cases label with
          | gap => cases h
          | token token erroneous => exact ⟨token.text, rfl⟩
          | rule label =>
              cases hdocuments :
                  (forest.children n).mapM (forest.documentWithin vocabulary depth) with
              | error fault => simp only [hdocuments] at h; cases h
              | ok documents =>
                  have hchildren : ∀ c ∈ forest.children n,
                      ∃ text, forest.textWithin depth c = .ok text := by
                    intro c hc
                    obtain ⟨document, hdocument⟩ := exists_ok_of_mapM hdocuments c hc
                    exact ih hdocument
                  obtain ⟨texts, htexts⟩ := mapM_ok hchildren
                  simp only [htexts]
                  exact ⟨String.join texts, rfl⟩

theorem Tree.text_ok {forest : Forest} {n : NodeId} (h : forest.Tree n) :
    ∃ text, forest.text n = .ok text := by
  obtain ⟨document, hdocument⟩ := h.document_ok (Vocabulary.ofNames [] [])
  exact textWithin_ok_of_documentWithin hdocument

/-- Every tree has a document. Dumped on one line, or with any indentation that is a 64-bit
number with a sign, it is a text that spells the document and nothing else, so that all
wishes lead to texts with one value. Any other indentation is refused. -/
theorem Tree.dump_faithful {forest : Forest} {n : NodeId} (h : forest.Tree n)
    (vocabulary : Vocabulary) :
    ∃ document, forest.document vocabulary n = .ok document ∧
      (∀ indent, Document.Fits indent →
        ∃ text, document.dump indent = .ok text ∧ Json.Encodes text document.toJson) ∧
      (∀ indent indent' text text', document.dump indent = .ok text →
        document.dump indent' = .ok text' → Json.parse? text = Json.parse? text') ∧
      ∀ indent, ¬ Document.Fits indent → document.dump indent = .error .indentOutOfRange := by
  obtain ⟨document, hdocument⟩ := h.document_ok vocabulary
  refine ⟨document, hdocument, fun indent hfits => ?_,
    fun indent indent' text text' hdump hdump' => ?_, fun _ => document.dump_eq_error⟩
  · obtain ⟨text, hdump⟩ := document.dump_eq_ok hfits
    exact ⟨text, hdump, Document.encodes_dump hdump⟩
  · rw [(Document.encodes_dump hdump).parse?_eq, (Document.encodes_dump hdump').parse?_eq]

/-- A rule node of an unknown parser holds a token with characters of all sorts, twice, and
a token that could not be placed, and a block that is empty. A negative indentation fits. -/
theorem Tree.dump_faithful_foreign :
    ∃ forest : Forest, ∃ document text, forest.size = 4 ∧
      forest.label? 0 = some (.rule ⟨"StrangeContext", none, false⟩) ∧
      forest.document (Vocabulary.ofNames [] []) 0 = .ok document ∧
      document.dump (some (-3)) = .ok text ∧ Json.parse? text = some document.toJson := by
  let forest : Forest := ⟨#[
    { label := .rule ⟨"StrangeContext", none, false⟩, children := [1, 2, 3, 1] },
    { label := .token ⟨7, "\"\\\n\x00\x7féλ😀"⟩ false, parent := some 0 },
    { label := .token ⟨-1, ""⟩ true, parent := some 0 },
    { label := .rule (.ofKind .block), parent := some 0 }]⟩
  have htoken : forest.Tree 1 := .token rfl
  have hblock : forest.Tree 3 := .rule rfl (List.forall_mem_nil _)
  have htree : forest.Tree 0 := by
    refine .rule rfl (List.forall_mem_cons.mpr ⟨htoken, List.forall_mem_cons.mpr ⟨.token rfl, ?_⟩⟩)
    exact List.forall_mem_cons.mpr ⟨hblock, List.forall_mem_singleton.mpr htoken⟩
  obtain ⟨document, hdocument, hdump, -⟩ := Tree.dump_faithful htree (Vocabulary.ofNames [] [])
  obtain ⟨text, htext, hencodes⟩ := hdump (some (-3)) ⟨by decide, by decide⟩
  exact ⟨forest, document, text, rfl, rfl, hdocument, htext, hencodes.parse?_eq⟩

/-- Not every wish for an indentation leads to a text. -/
theorem Tree.dump_not_total :
    ¬ ∀ (forest : Forest) (n : NodeId) (vocabulary : Vocabulary) (indent : Option Int),
      forest.Tree n → ∃ document text, forest.document vocabulary n = .ok document ∧
        document.dump indent = .ok text ∧ Json.Encodes text document.toJson := by
  intro hall
  obtain ⟨document, text, -, hdump, -⟩ := hall ⟨#[{ label := .rule (.ofKind .block) }]⟩ 0
    (Vocabulary.ofNames [] []) (some (-0x8000000000000001)) (.rule rfl (List.forall_mem_nil _))
  have hrefused : ¬ Document.Fits (some (-0x8000000000000001)) := fun h => absurd h.1 (by decide)
  rw [document.dump_eq_error hrefused] at hdump
  cases hdump

end Forest

end SolidityLint
