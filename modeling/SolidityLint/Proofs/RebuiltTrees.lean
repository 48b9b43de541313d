import SolidityLint.Forest.Sketch
import SolidityLint.Proofs.BuilderFrame
import SolidityLint.Proofs.DumpedDocuments
import SolidityLint.Proofs.GeneratedParser

/-!
# Trees built again

A document shows the names of rules and the texts of tokens, and the names of token types,
which several types may share. Neither the kinds nor the types stand in it. For a tree built
from kinds and texts it says all the same what the tree is: rule names are told apart as well
as kinds are, because they differ from the names of the kinds only in the case of a capital
letter, and the builder chooses the type of a text by the text alone.

The sketch that a tree was built from stands between the tree and its document. A sketch can
be built if its kinds are rules and its texts have a type, whatever the forest is
(`Buildable`), and what is built from it then depicts it (`Depicts`): node by node the tree
has the labels that the sketch asks for. Planting changes nothing of the nodes that are there
but their parents (`Extends`), so what depicts a sketch does so in all later forests. Nodes
that depict one sketch are roots of the same tree, and their documents are read back as that
sketch.
-/

namespace SolidityLint

/-! ## Lists side by side -/

section Forall

variable {α β γ : Type} {R : α → β → Prop} {S : β → γ → Prop} {T : α → γ → Prop}

theorem forall₂_comp {as : List α} {bs : List β} (h : List.Forall₂ R as bs) :
    ∀ {cs : List γ}, List.Forall₂ S bs cs →
      (∀ a ∈ as, ∀ b ∈ bs, ∀ c, R a b → S b c → T a c) → List.Forall₂ T as cs := by
  induction h with
  | nil =>
      intro cs h' _
      cases h'
      exact .nil
  | @cons a b as bs hab _ ih =>
      intro cs h' hcomp
      cases h' with
      | @cons _ c _ _ hbc hrest =>
          refine .cons (hcomp a List.mem_cons_self b List.mem_cons_self c hab hbc) (ih hrest ?_)
          intro a' ha' b' hb'
          exact hcomp a' (List.mem_cons_of_mem _ ha') b' (List.mem_cons_of_mem _ hb')

theorem exists_append_of_append {as as' : List α} :
    ∀ {bs : List β}, List.Forall₂ R (as ++ as') bs →
      ∃ cs cs', bs = cs ++ cs' ∧ List.Forall₂ R as cs ∧ List.Forall₂ R as' cs' := by
  induction as with
  | nil => intro bs h; exact ⟨[], bs, rfl, .nil, h⟩
  | cons a as ih =>
      intro bs h
      cases h with
      | @cons _ b _ bs hab hrest =>
          obtain ⟨cs, cs', rfl, hcs, hcs'⟩ := ih hrest
          exact ⟨b :: cs, cs', rfl, .cons hab hcs, hcs'⟩

end Forall

/-! ## Rule names -/

namespace Text

theorem toNat_of_isUpper {c : Char} (h : c.isUpper = true) : 65 ≤ c.toNat ∧ c.toNat ≤ 90 := by
  have hrange : c.val ≥ 'A'.val ∧ c.val ≤ 'Z'.val := of_decide_eq_true h
  simpa [UInt32.le_iff_toNat_le] using hrange

theorem lower_of_isUpper {c : Char} (h : c.isUpper = true) :
    lower c = [Char.ofNat (c.toNat + 32)] := by
  have hrange := toNat_of_isUpper h
  have hne : c ≠ '\u0130' := by
    intro heq
    rw [heq] at h
    exact absurd h (by decide)
  have hcovers : CaseRun.covers ⟨0x41, 0x5A, 1, 0x61⟩ c.toNat = true := by
    simp [CaseRun.covers, hrange, Nat.mod_one]
  have hfind : lowerRuns.find? (·.covers c.toNat) = some ⟨0x41, 0x5A, 1, 0x61⟩ :=
    List.find?_cons_of_pos hcovers
  rw [lower, if_neg hne, hfind]
  show [Char.ofNat (97 + (c.toNat - 65))] = _
  rw [show 97 + (c.toNat - 65) = c.toNat + 32 by omega]

theorem toNat_ofNat_of_isUpper {c : Char} (h : c.isUpper = true) :
    (Char.ofNat (c.toNat + 32)).toNat = c.toNat + 32 := by
  have hrange := toNat_of_isUpper h
  have hvalid : (c.toNat + 32).isValidChar := Or.inl (by omega)
  rw [Char.ofNat, dif_pos hvalid]
  rfl

/-- No two capital letters have the same lower-case form, so the names that begin with one can
be told from their form in `camelCase`. -/
theorem camelCase_inj {a b : String} (ha : a.toList.head?.any Char.isUpper = true)
    (hb : b.toList.head?.any Char.isUpper = true) (h : camelCase a = camelCase b) : a = b := by
  cases hlista : a.toList with
  | nil => rw [hlista] at ha; cases ha
  | cons c rest =>
      cases hlistb : b.toList with
      | nil => rw [hlistb] at hb; cases hb
      | cons d rest' =>
          rw [hlista] at ha
          rw [hlistb] at hb
          rw [camelCase, camelCase, hlista, hlistb] at h
          have hlist := String.ofList_injective h
          rw [lower_of_isUpper ha, lower_of_isUpper hb] at hlist
          obtain ⟨hfirst, hrest⟩ := List.cons.inj hlist
          have hcode := congrArg Char.toNat hfirst
          rw [toNat_ofNat_of_isUpper ha, toNat_ofNat_of_isUpper hb] at hcode
          have hchar : c = d := Char.toNat_inj.mp (Nat.add_right_cancel hcode)
          rw [← String.toList_inj, hlista, hlistb, hchar]
          exact congrArg (d :: ·) hrest

end Text

namespace Kind

/-- The kind with a rule name. -/
def ofRuleName? (name : String) : Option Kind := rules.find? (·.ruleName? == some name)

theorem head?_name {kind : Kind} (h : kind.isRule = true) :
    kind.name.toList.head?.any Char.isUpper = true := by
  revert h
  cases kind <;> decide +kernel

theorem ruleName?_of_isRule {kind : Kind} (h : kind.isRule = true) :
    kind.ruleName? = some (Text.camelCase kind.name) := if_pos h

theorem ofRuleName?_ruleName {kind : Kind} (h : kind.isRule = true) :
    ofRuleName? (RuleLabel.ofKind kind).ruleName = some kind := by
  have hname : (RuleLabel.ofKind kind).ruleName = Text.camelCase kind.name := by
    show kind.ruleName?.getD _ = _
    rw [ruleName?_of_isRule h]
    rfl
  have hmem : kind ∈ rules := List.mem_filter.mpr ⟨by cases kind <;> decide, h⟩
  rw [hname]
  cases hfind : ofRuleName? (Text.camelCase kind.name) with
  | none =>
      have hno := List.find?_eq_none.mp hfind kind hmem
      rw [ruleName?_of_isRule h] at hno
      exact absurd (beq_self_eq_true _) hno
  | some found =>
      have hrule : found.isRule = true :=
        (List.mem_filter.mp (List.mem_of_find?_eq_some hfind)).2
      have hfound := List.find?_some hfind
      rw [ruleName?_of_isRule hrule, beq_iff_eq] at hfound
      have hnames := Text.camelCase_inj (head?_name hrule) (head?_name h) (Option.some.inj hfound)
      rw [← ofName?_name found, hnames, ofName?_name]

end Kind

/-! ## Sketches -/

namespace Sketch

/-- A sketch of kinds and texts only. -/
inductive Plain : Sketch → Prop where
  | text (text : String) : Plain (.text text)
  | rule (kind : Kind) {children : List Sketch} (h : ∀ child ∈ children, Plain child) :
      Plain (.rule kind children)

/-- A plain sketch in which the kinds are rules and the texts have a type. -/
inductive Buildable (vocabulary : Vocabulary) : Sketch → Prop where
  | text {text : String} {token : Token} (h : vocabulary.token text none = .ok token) :
      Buildable vocabulary (.text text)
  | rule {kind : Kind} {children : List Sketch} (hrule : kind.isRule = true)
      (hchildren : ∀ child ∈ children, Buildable vocabulary child) :
      Buildable vocabulary (.rule kind children)

theorem Buildable.plain {vocabulary : Vocabulary} {sketch : Sketch}
    (h : sketch.Buildable vocabulary) : sketch.Plain := by
  induction h with
  | text _ => exact .text _
  | rule _ _ ih => exact .rule _ ih

mutual

/-- The sketch of a dumped tree: what has children is a node of the kind with its rule name,
and what has a text is that text. -/
def ofJson? : Json → Option Sketch
  | .object [("type", .string type), ("children", .array children)] => do
    return .rule (← Kind.ofRuleName? type) (← ofJsonAll? children)
  | .object (("type", _) :: ("text", .string content) :: _) => some (.text content)
  | _ => none

/-- The sketches of dumped trees. -/
def ofJsonAll? : List Json → Option (List Sketch)
  | [] => some []
  | json :: rest => do return (← ofJson? json) :: (← ofJsonAll? rest)

end

theorem ofJson?_token (type text : String) (erroneous : Bool) :
    ofJson? (Document.token type text erroneous).toJson = some (.text text) := by
  cases erroneous <;> simp [Document.toJson, ofJson?]

theorem ofJson?_rule {kind : Kind} (hrule : kind.isRule = true) {documents : List Document}
    {sketches : List Sketch} (h : ofJsonAll? (Document.toJsonAll documents) = some sketches) :
    ofJson? (Document.rule (RuleLabel.ofKind kind).ruleName documents).toJson =
      some (.rule kind sketches) := by
  simp [Document.toJson, ofJson?, Kind.ofRuleName?_ruleName hrule, h]

theorem ofJsonAll?_eq {sketches : List Sketch} {documents : List Document}
    (h : List.Forall₂ (fun sketch document => ofJson? (Document.toJson document) = some sketch)
      sketches documents) :
    ofJsonAll? (Document.toJsonAll documents) = some sketches := by
  induction h with
  | nil => rfl
  | cons hfirst _ ih => simp [Document.toJsonAll, ofJsonAll?, hfirst, ih]

end Sketch

/-! ## What can be built -/

theorem Vocabulary.text_of_token {vocabulary : Vocabulary} {text : String} {token : Token}
    (h : vocabulary.token text none = .ok token) : token.text = text := by
  rw [Vocabulary.token] at h
  cases htype : vocabulary.typeOfText text with
  | error fault => simp only [htype] at h; cases h
  | ok type => simp only [htype] at h; cases h; rfl

namespace Forest

variable {vocabulary : Vocabulary}

theorem exists_plant_of_plantAll {sketches : List Sketch} :
    ∀ {forest after : Forest} {parts : List Part},
      plantAll vocabulary forest sketches = (after, .ok parts) →
      ∀ sketch ∈ sketches, ∃ part ∈ parts, ∃ f g, plant vocabulary f sketch = (g, .ok part) := by
  induction sketches with
  | nil => intro forest after parts _ sketch hmem; cases hmem
  | cons first rest ih =>
      intro forest after parts h sketch hmem
      rw [plantAll] at h
      split at h
      · next middle part hfirst =>
          split at h
          · next last others hrest =>
              cases h
              rcases List.mem_cons.mp hmem with rfl | hmem
              · exact ⟨part, List.mem_cons_self, forest, middle, hfirst⟩
              · obtain ⟨part, hpart, hplant⟩ := ih hrest sketch hmem
                exact ⟨part, List.mem_cons_of_mem _ hpart, hplant⟩
          · cases h
      · cases h

theorem plant_rule_eq_ok_iff {forest after : Forest} {kind : Kind} {children : List Sketch}
    {part : Part} :
    plant vocabulary forest (.rule kind children) = (after, .ok part) ↔
      kind.isRule = true ∧ ∃ middle parts n,
        plantAll vocabulary forest children = (middle, .ok parts) ∧
        middle.growLabelled vocabulary (.ofKind kind) parts = (after, .ok n) ∧
        part = .node (some n) := by
  rw [plant]
  constructor
  · intro h
    split at h
    · next middle parts hparts =>
        by_cases hrule : kind.isRule = true
        · rw [grow, if_pos hrule] at h
          rcases hgrow : middle.growLabelled vocabulary (.ofKind kind) parts with ⟨_, fault | n⟩
          · rw [hgrow] at h
            cases h
          · rw [hgrow] at h
            cases h
            exact ⟨hrule, middle, parts, n, hparts, hgrow, rfl⟩
        · rw [grow, if_neg hrule] at h
          cases h
    · cases h
  · rintro ⟨hrule, middle, parts, n, hparts, hgrow, rfl⟩
    simp only [hparts, grow, if_pos hrule, hgrow, asPart]

/-- A plain sketch that is planted can be built, provided that the part it leads to can be
attached: a text is not looked up before that. -/
theorem buildable_of_plant {sketch : Sketch} (hplain : sketch.Plain) :
    ∀ {forest after : Forest} {part : Part},
      plant vocabulary forest sketch = (after, .ok part) → part.Attachable vocabulary →
      sketch.Buildable vocabulary := by
  induction hplain with
  | text text =>
      intro forest after part h hpart
      cases h
      cases hpart with
      | text htoken => exact .text htoken
  | rule kind hchildren ih =>
      -- What the node is made of was attached, so each child led to a part that can be.
      intro forest after part h _
      obtain ⟨hrule, middle, parts, n, hparts, hgrow, -⟩ := plant_rule_eq_ok_iff.mp h
      obtain ⟨-, hattachable⟩ := growLabelled_eq_ok_iff.mp (congrArg Prod.snd hgrow)
      refine .rule hrule ?_
      intro child hchild
      obtain ⟨part, hpart, f, g, hplant⟩ := exists_plant_of_plantAll hparts child hchild
      exact ih child hchild hplant (hattachable part hpart)

/-! ## What is built -/

/-- A node with the tree below it that a sketch describes. -/
inductive Depicts (forest : Forest) (vocabulary : Vocabulary) : Sketch → NodeId → Prop where
  | text {text : String} {token : Token} {n : NodeId}
      (htoken : vocabulary.token text none = .ok token)
      (hlabel : forest.label? n = some (.token token false)) (hchildren : forest.children n = []) :
      Depicts forest vocabulary (.text text) n
  | rule {kind : Kind} {sketches : List Sketch} {n : NodeId} (hrule : kind.isRule = true)
      (hlabel : forest.label? n = some (.rule (.ofKind kind)))
      (hchildren : List.Forall₂ (Depicts forest vocabulary) sketches (forest.children n)) :
      Depicts forest vocabulary (.rule kind sketches) n

/-- What a sketch is turned into before it is attached. -/
inductive Realizes (forest : Forest) (vocabulary : Vocabulary) : Sketch → Part → Prop where
  | text {text : String} {token : Token} (htoken : vocabulary.token text none = .ok token) :
      Realizes forest vocabulary (.text text) (.text text)
  | rule {kind : Kind} {sketches : List Sketch} {n : NodeId}
      (h : forest.Depicts vocabulary (.rule kind sketches) n) :
      Realizes forest vocabulary (.rule kind sketches) (.node (some n))

theorem Depicts.lt_size {forest : Forest} {sketch : Sketch} {n : NodeId}
    (h : forest.Depicts vocabulary sketch n) : n < forest.size := by
  cases h with
  | text _ hlabel _ => exact lt_size_of_label? hlabel
  | rule _ hlabel _ => exact lt_size_of_label? hlabel

/-- What a node depicts in a forest it depicts in all that the forest is extended to. -/
theorem Depicts.mono {before after : Forest} (hextends : Extends before after) {sketch : Sketch}
    (hsketch : sketch.Buildable vocabulary) :
    ∀ {n : NodeId}, before.Depicts vocabulary sketch n → after.Depicts vocabulary sketch n := by
  induction hsketch with
  | text _ =>
      intro n h
      cases h with
      | text htoken hlabel hchildren =>
          have hn := lt_size_of_label? hlabel
          exact .text htoken ((hextends.label?_eq n hn).trans hlabel)
            ((hextends.children_eq n hn).trans hchildren)
  | @rule kind sketches _ _ ih =>
      intro n h
      cases h with
      | rule hrule hlabel hchildren =>
          have hn := lt_size_of_label? hlabel
          refine .rule hrule ((hextends.label?_eq n hn).trans hlabel) ?_
          rw [hextends.children_eq n hn]
          have hboth := (List.forall₂_and_left sketches _).mpr ⟨@ih, hchildren⟩
          exact hboth.imp fun sketch c hc => hc.1 hc.2

theorem Realizes.attachable {forest : Forest} {sketch : Sketch} {part : Part}
    (h : forest.Realizes vocabulary sketch part) : part.Attachable vocabulary := by
  cases h with
  | text htoken => exact .text htoken
  | rule h => exact .node _

theorem growLabelled_depicts {forest : Forest} (label : RuleLabel) {sketches : List Sketch}
    {parts : List Part} (hsketches : ∀ sketch ∈ sketches, sketch.Buildable vocabulary)
    (hparts : List.Forall₂ (forest.Realizes vocabulary) sketches parts) :
    ∃ after, forest.growLabelled vocabulary label parts = (after, .ok forest.size) ∧
      Extends forest after ∧ after.label? forest.size = some (.rule label) ∧
      List.Forall₂ (after.Depicts vocabulary) sketches (after.children forest.size) := by
  have hlt : ∀ n, .node (some n) ∈ parts → n < forest.size := by
    intro n hn
    obtain ⟨sketch, -, hsketch⟩ := exists_of_mem_right hparts _ hn
    cases hsketch with
    | rule h => exact h.lt_size
  have hattachable : ∀ part ∈ parts, part.Attachable vocabulary := by
    intro part hpart
    obtain ⟨sketch, -, hsketch⟩ := exists_of_mem_right hparts part hpart
    exact hsketch.attachable
  obtain ⟨after, hgrow, hgrown⟩ := growLabelled_grown label hlt hattachable
  refine ⟨after, hgrow, hgrown.extended, hgrown.label?_eq, ?_⟩
  refine forall₂_comp hparts hgrown.attached ?_
  intro sketch hsketch part _ c hrealizes hc
  cases hrealizes with
  | text _ =>
      cases hc with
      | text htoken hlabel hbound => exact .text htoken hlabel (hgrown.children_eq_nil c hbound)
  | rule h =>
      cases hc with
      | node _ => exact h.mono hgrown.extended (hsketches _ hsketch)

theorem Realizes.mono {before after : Forest} (hextends : Extends before after) {sketch : Sketch}
    (hsketch : sketch.Buildable vocabulary) {part : Part}
    (h : before.Realizes vocabulary sketch part) : after.Realizes vocabulary sketch part := by
  cases h with
  | text htoken => exact .text htoken
  | rule h => exact .rule (h.mono hextends hsketch)

theorem plantAll_realizes {sketches : List Sketch}
    (hsketches : ∀ sketch ∈ sketches, sketch.Buildable vocabulary)
    (hplant : ∀ sketch ∈ sketches, ∀ forest, ∃ after part,
      plant vocabulary forest sketch = (after, .ok part) ∧ Extends forest after ∧
        after.Realizes vocabulary sketch part) :
    ∀ forest, ∃ after parts, plantAll vocabulary forest sketches = (after, .ok parts) ∧
      Extends forest after ∧ List.Forall₂ (after.Realizes vocabulary) sketches parts := by
  induction sketches with
  | nil => intro forest; exact ⟨forest, [], rfl, .refl forest, .nil⟩
  | cons sketch rest ih =>
      intro forest
      obtain ⟨hsketch, hrest⟩ := List.forall_mem_cons.mp hsketches
      obtain ⟨hfirst, hothers⟩ := List.forall_mem_cons.mp hplant
      obtain ⟨middle, part, hpart, hmiddle, hrealizes⟩ := hfirst forest
      obtain ⟨after, parts, hparts, hafter, hall⟩ := ih hrest hothers middle
      refine ⟨after, part :: parts, ?_, hmiddle.trans hafter, .cons ?_ hall⟩
      · rw [plantAll, hpart]
        simp only [hparts]
      · exact hrealizes.mono hafter hsketch

/-- Planting what can be built succeeds in every forest. -/
theorem plant_realizes {sketch : Sketch} (h : sketch.Buildable vocabulary) :
    ∀ forest, ∃ after part, plant vocabulary forest sketch = (after, .ok part) ∧
      Extends forest after ∧ after.Realizes vocabulary sketch part := by
  induction h with
  | text htoken =>
      intro forest
      exact ⟨forest, _, rfl, .refl forest, .text htoken⟩
  | @rule kind children hrule hchildren ih =>
      intro forest
      obtain ⟨middle, parts, hparts, hmiddle, hrealizes⟩ := plantAll_realizes hchildren ih forest
      obtain ⟨after, hgrow, hafter, hlabel, hdepicts⟩ :=
        growLabelled_depicts (.ofKind kind) hchildren hrealizes
      exact ⟨after, _, plant_rule_eq_ok_iff.mpr ⟨hrule, middle, parts, _, hparts, hgrow, rfl⟩,
        hmiddle.trans hafter, .rule (.rule hrule hlabel hdepicts)⟩

theorem plant_depicts {forest after : Forest} {sketch : Sketch} {n : NodeId}
    (hplain : sketch.Plain) (h : plant vocabulary forest sketch = (after, .ok (.node (some n)))) :
    sketch.Buildable vocabulary ∧ after.Depicts vocabulary sketch n := by
  have hbuildable := buildable_of_plant hplain h (.node n)
  obtain ⟨after', part, hplant, -, hrealizes⟩ := plant_realizes hbuildable forest
  rw [h] at hplant
  cases hplant
  cases hrealizes with
  | rule hdepicts => exact ⟨hbuildable, hdepicts⟩

/-! ## Trees and their documents -/

/-- Two nodes with trees of one shape below them, whose nodes have the same labels. -/
inductive SameTree (f g : Forest) : NodeId → NodeId → Prop where
  | node {n m : NodeId} {label : Label} (hf : f.label? n = some label)
      (hg : g.label? m = some label)
      (hchildren : List.Forall₂ (SameTree f g) (f.children n) (g.children m)) : SameTree f g n m

theorem Depicts.sameTree {f g : Forest} {sketch : Sketch} (hsketch : sketch.Buildable vocabulary) :
    ∀ {n m : NodeId}, f.Depicts vocabulary sketch n → g.Depicts vocabulary sketch m →
      SameTree f g n m := by
  induction hsketch with
  | text _ =>
      intro n m hn hm
      cases hn with
      | text htoken hlabel hchildren =>
          cases hm with
          | text htoken' hlabel' hchildren' =>
              cases htoken.symm.trans htoken'
              refine .node hlabel hlabel' ?_
              rw [hchildren, hchildren']
              exact .nil
  | rule _ _ ih =>
      intro n m hn hm
      cases hn with
      | rule _ hlabel hchildren =>
          cases hm with
          | rule _ hlabel' hchildren' =>
              refine .node hlabel hlabel' (forall₂_comp hchildren.flip hchildren' ?_)
              intro c _ sketch hsketch c' hc hc'
              exact ih sketch hsketch hc hc'

theorem Depicts.tree {forest : Forest} {sketch : Sketch} (hsketch : sketch.Buildable vocabulary) :
    ∀ {n : NodeId}, forest.Depicts vocabulary sketch n → forest.Tree n := by
  induction hsketch with
  | text _ =>
      intro n h
      cases h with
      | text _ hlabel _ => exact .token hlabel
  | rule _ _ ih =>
      intro n h
      cases h with
      | rule _ hlabel hchildren =>
          refine .rule hlabel ?_
          intro c hc
          obtain ⟨sketch, hsketch, hdepicts⟩ := exists_of_mem_right hchildren c hc
          exact ih sketch hsketch hdepicts

/-- The document of a node is read back as the sketch that the node depicts. -/
theorem Depicts.ofJson?_document {forest : Forest} {sketch : Sketch}
    (hsketch : sketch.Buildable vocabulary) :
    ∀ {depth : Nat} {n : NodeId} {document : Document},
      forest.Depicts vocabulary sketch n →
      forest.documentWithin vocabulary depth n = .ok document →
      Sketch.ofJson? document.toJson = some sketch := by
  induction hsketch with
  | text _ =>
      intro depth n document h hdocument
      cases depth with
      | zero => cases hdocument
      | succ depth =>
          cases h with
          | text htoken hlabel _ =>
              rw [documentWithin, hlabel] at hdocument
              cases hdocument
              rw [Sketch.ofJson?_token, Vocabulary.text_of_token htoken]
  | rule _ _ ih =>
      intro depth n document h hdocument
      cases depth with
      | zero => cases hdocument
      | succ depth =>
          cases h with
          | rule hrule hlabel hchildren =>
              rw [documentWithin, hlabel] at hdocument
              cases hdocuments : (forest.children n).mapM
                  (forest.documentWithin vocabulary depth) with
              | error fault =>
                  simp only [hdocuments] at hdocument
                  cases hdocument
              | ok documents =>
                  simp only [hdocuments] at hdocument
                  cases hdocument
                  refine Sketch.ofJson?_rule hrule (Sketch.ofJsonAll?_eq ?_)
                  refine forall₂_comp hchildren (mapM_eq_ok_iff.mp hdocuments) ?_
                  intro sketch hsketch c _ document hdepicts hdocument
                  exact ih sketch hsketch hdepicts hdocument

/-- What is built from a plain sketch has a document that is read back as that sketch. Built
from it again, in any forest, it is the same tree. So trees of plain sketches that have the
same document are the same, wherever they stand. -/
theorem plant_readBack {forest after : Forest} {sketch : Sketch} {n : NodeId}
    (hplain : sketch.Plain)
    (hplant : plant vocabulary forest sketch = (after, .ok (.node (some n)))) :
    ∃ document, after.document vocabulary n = .ok document ∧
      Sketch.ofJson? document.toJson = some sketch ∧
      (∀ other, ∃ rebuilt m,
        plant vocabulary other sketch = (rebuilt, .ok (.node (some m))) ∧
        SameTree after rebuilt n m) ∧
      ∀ (other another : Forest) (sketch' : Sketch) (m : NodeId) (document' : Document),
        sketch'.Plain → plant vocabulary other sketch' = (another, .ok (.node (some m))) →
        another.document vocabulary m = .ok document' → document'.toJson = document.toJson →
        SameTree after another n m := by
  obtain ⟨hbuildable, hdepicts⟩ := plant_depicts hplain hplant
  obtain ⟨document, hdocument⟩ := (hdepicts.tree hbuildable).document_ok vocabulary
  have hread := hdepicts.ofJson?_document hbuildable hdocument
  refine ⟨document, hdocument, hread, ?_, ?_⟩
  · intro other
    obtain ⟨rebuilt, part, hrebuilt, -, hrealizes⟩ := plant_realizes hbuildable other
    cases hrealizes with
    | text _ => cases hdepicts; cases hplant
    | rule hdepicts' => exact ⟨rebuilt, _, hrebuilt, hdepicts.sameTree hbuildable hdepicts'⟩
  · intro other another sketch' m document' hplain' hplant' hdocument' hjson
    obtain ⟨hbuildable', hdepicts'⟩ := plant_depicts hplain' hplant'
    have hread' := hdepicts'.ofJson?_document hbuildable' hdocument'
    rw [hjson, hread] at hread'
    cases hread'
    exact hdepicts.sameTree hbuildable hdepicts'

/-- A block with two texts of one type, an empty statement and a literal, which is built again
in the forest where it stands already. -/
theorem plant_readBack_block :
    let vocabulary := Vocabulary.ofNames [none, some "';'"] [none, none, some "Identifier"]
    let sketch : Sketch :=
      .rule .block [.text "x", .rule .statement [], .text ";", .rule .expression [.text "y"]]
    ∃ after n document, plant vocabulary {} sketch = (after, .ok (.node (some n))) ∧
      after.document vocabulary n = .ok document ∧
      Sketch.ofJson? document.toJson = some sketch ∧
      ∃ rebuilt m, plant vocabulary after sketch = (rebuilt, .ok (.node (some m))) ∧
        SameTree after rebuilt n m := by
  intro vocabulary sketch
  have hname : ∀ text, text = "x" ∨ text = "y" → vocabulary.token text none = .ok ⟨2, text⟩ := by
    rintro text (rfl | rfl)
    all_goals
      simp only [Vocabulary.token, Vocabulary.typeOfText, Vocabulary.requireSymbol,
        Vocabulary.tokenType_eq_find?, Vocabulary.symbolType_eq_find?]
      rfl
  have hliteral : vocabulary.token ";" none = .ok ⟨1, ";"⟩ := by
    simp only [Vocabulary.token, Vocabulary.typeOfText, Vocabulary.tokenType_eq_find?]
    rfl
  have hstatement : (Sketch.rule .statement []).Buildable vocabulary :=
    .rule rfl (List.forall_mem_nil _)
  have hexpression : (Sketch.rule .expression [.text "y"]).Buildable vocabulary :=
    .rule rfl (List.forall_mem_singleton.mpr (.text (hname "y" (.inr rfl))))
  have hbuildable : sketch.Buildable vocabulary := by
    refine .rule rfl (List.forall_mem_cons.mpr ⟨.text (hname "x" (.inl rfl)), ?_⟩)
    refine List.forall_mem_cons.mpr ⟨hstatement, List.forall_mem_cons.mpr ⟨.text hliteral, ?_⟩⟩
    exact List.forall_mem_singleton.mpr hexpression
  obtain ⟨after, part, hplant, -, -⟩ := plant_realizes hbuildable {}
  obtain ⟨-, -, -, n, -, -, rfl⟩ := plant_rule_eq_ok_iff.mp hplant
  obtain ⟨document, hdocument, hread, hrebuilt, -⟩ := plant_readBack hbuildable.plain hplant
  exact ⟨after, n, document, hplant, hdocument, hread, hrebuilt after⟩

end Forest

end SolidityLint
