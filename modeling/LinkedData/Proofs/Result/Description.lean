import Mathlib.Data.List.Dedup
import Mathlib.Data.List.Perm.Basic
import LinkedData.Json.Basic
import LinkedData.Proofs.Triple.Blocks

/-!
# What a store answers

Asked to describe what it holds, a store answers with one record for each subject. The record
has the bare locator of the subject, and for each predicate of the subject a member with the
objects, in the order in which the triples came (`describe`). Neither the records nor
the members of a record come in any particular order (`Describes`).

The triples of a describable tree come in blocks, one a node, and the triples of a node in
blocks, one an edge. So the records are those of the nodes (`describes_blocks`).
-/

namespace LinkedData

open Literal

/-! ## Records -/

/-- The document for a token: an object with the locator, or with the unescaped text of a
literal and its datatype. -/
def Literal.Token.json : Token → Json
  | .literal quoted none => .object [("@value", .string (String.ofList (unescapeChars quoted)))]
  | .literal quoted (some datatype) =>
    .object [("@value", .string (String.ofList (unescapeChars quoted))),
      ("@type", .string datatype)]
  | .locator text => .object [(Vocabulary.idKey, .string text)]
  | .name text => .object [(Vocabulary.idKey, .string (Vocabulary.terms ++ text))]

namespace Description

/-- The document for an object in wire text. -/
def objectJson (text : String) : Json :=
  match Token.ofText? text with
  | some token => token.json
  | none => .null

/-- The bare locator of a subject. -/
def subjectLocator (text : String) : String :=
  match Token.ofText? text with
  | some (.locator locator) => locator
  | _ => text

/-- The key of a predicate: its name in the own vocabulary. -/
def predicateKey (text : String) : String :=
  match Token.ofText? text with
  | some (.name name) => Vocabulary.terms ++ name
  | _ => text

/-- Several objects form an array, a single one stands for itself. -/
def arrayOf : List Json → Json
  | [single] => single
  | several => .array several

/-- The record of a subject, with these triples about it. -/
def recordOf (subject : String) (own : List Triple) : Fields Json :=
  (Vocabulary.idKey, .string (subjectLocator subject)) ::
    (own.map (·.predicate)).dedup.map fun predicate => (predicateKey predicate,
      arrayOf ((own.filter (·.predicate = predicate)).map fun triple => objectJson triple.object))

/-- One record for each subject. -/
def describe (triples : List Triple) : List (Fields Json) :=
  (triples.map (·.subject)).dedup.map fun subject =>
    recordOf subject (triples.filter (·.subject = subject))

/-- The records describe the triples; the order of the records, and of the members of each,
is left to the store. -/
def Describes (triples : List Triple) (records : List Json) : Prop :=
  ∃ listed : List (Fields Json), listed.Perm (describe triples) ∧
    List.Forall₂ (fun record fields => ∃ members : Fields Json,
      members.Perm fields ∧ record = .object members) records listed

/-- The records in any order are an answer. -/
theorem describes_of_perm {triples : List Triple} {listed : List (Fields Json)}
    (h : listed.Perm (describe triples)) : Describes triples (listed.map .object) := by
  refine ⟨listed, h, ?_⟩
  rw [List.forall₂_map_left_iff, List.forall₂_same]
  exact fun fields _ => ⟨fields, .refl _, rfl⟩

/-! ## Blocks -/

section

variable {ι τ : Type} {key : ι → String} {tag : τ → String} {block : ι → List τ}

/-- Blocks with different keys are told apart by the tags of what is in them. -/
theorem filter_blocks {items : List ι} (hkeys : (items.map key).Nodup)
    (htag : ∀ item ∈ items, ∀ t ∈ block item, tag t = key item) {item : ι} (h : item ∈ items) :
    (items.flatMap block).filter (tag · = key item) = block item := by
  induction items with
  | nil => cases h
  | cons first rest ih =>
    rw [List.map_cons, List.nodup_cons] at hkeys
    rw [List.flatMap_cons, List.filter_append]
    have hrest : ∀ other ∈ rest, ∀ t ∈ block other, tag t = key other :=
      fun other hother => htag other (List.mem_cons_of_mem _ hother)
    rcases List.mem_cons.1 h with rfl | hmem
    · have hhere : (block item).filter (tag · = key item) = block item :=
        List.filter_eq_self.2 fun t ht => decide_eq_true (htag item List.mem_cons_self t ht)
      have hothers : (rest.flatMap block).filter (tag · = key item) = [] := by
        refine List.filter_eq_nil_iff.2 fun t ht => ?_
        obtain ⟨other, hother, ht⟩ := List.mem_flatMap.1 ht
        rw [decide_eq_true_iff, hrest other hother t ht]
        exact fun heq => hkeys.1 (heq ▸ List.mem_map_of_mem hother)
      rw [hhere, hothers, List.append_nil]
    · have hhere : (block first).filter (tag · = key item) = [] := by
        refine List.filter_eq_nil_iff.2 fun t ht => ?_
        rw [decide_eq_true_iff, htag first List.mem_cons_self t ht]
        exact fun heq => hkeys.1 (heq ▸ List.mem_map_of_mem hmem)
      rw [hhere, List.nil_append, ih hkeys.2 hrest hmem]

/-- If no block is empty, the tags are the keys. -/
theorem dedup_blocks {items : List ι} (hkeys : (items.map key).Nodup)
    (htag : ∀ item ∈ items, ∀ t ∈ block item, tag t = key item)
    (hne : ∀ item ∈ items, block item ≠ []) :
    ((items.flatMap block).map tag).dedup.Perm (items.map key) := by
  rw [List.perm_ext_iff_of_nodup (List.nodup_dedup _) hkeys]
  intro text
  rw [List.mem_dedup, List.mem_map, List.mem_map]
  constructor
  · rintro ⟨t, ht, rfl⟩
    obtain ⟨item, hitem, ht⟩ := List.mem_flatMap.1 ht
    exact ⟨item, hitem, (htag item hitem t ht).symm⟩
  · rintro ⟨item, hitem, rfl⟩
    obtain ⟨t, ht⟩ := List.exists_mem_of_ne_nil _ (hne item hitem)
    exact ⟨t, List.mem_flatMap.2 ⟨item, hitem, ht⟩, htag item hitem t ht⟩

end

/-! ## The record of a node -/

/-- The document for a value behind an edge. -/
def edgeJson (codec : Codec) (v : Value) : Json :=
  arrayOf (v.objects.map fun object => objectJson (objectText codec object))

/-- The members that describe a node, in the order of its edges. -/
def members (codec : Codec) (entries : Node) : Fields Json :=
  (Vocabulary.idKey, .string (subjectLocator (objectText codec (.node entries)))) ::
    (edges entries).map fun edge => (Vocabulary.terms ++ edge.1, edgeJson codec edge.2)

/-- The record has the members of the node, in any order. -/
def RecordOf (codec : Codec) (entries : Node) (record : Json) : Prop :=
  ∃ fields : Fields Json, fields.Perm (members codec entries) ∧ record = .object fields

section

variable {codec : Codec} {ids : List (Option Value)}

theorem predicateKey_name (key : String) :
    predicateKey (":" ++ key) = Vocabulary.terms ++ key := by
  rw [predicateKey, Token.ofText?_name]

theorem subjectLocator_bracketed (locator : String) :
    subjectLocator (bracketed locator) = locator := by
  rw [subjectLocator, Token.ofText?_bracketed]

theorem ofEdge_ne_nil {v : Value} (h : IsEdge ids v) (subject key : String) :
    Triple.ofEdge codec subject (key, v) ≠ [] :=
  fun hnil => h.objects_ne_nil (List.map_eq_nil_iff.1 hnil)

theorem ofNode_ne_nil {entries : Node} (h : DescribableNode ids entries) :
    Triple.ofNode codec entries ≠ [] := by
  obtain ⟨edge, hmem, hkey, -⟩ := h.edge
  have hedge : edge ∈ edges entries := mem_edges.2 ⟨hmem, hkey⟩
  intro hnil
  rw [Triple.ofNode, List.flatMap_eq_nil_iff] at hnil
  exact ofEdge_ne_nil (h.values edge hedge) _ edge.1 (hnil edge hedge)

theorem subject_of_mem_ofNode {entries : Node} {t : Triple}
    (h : t ∈ Triple.ofNode codec entries) : t.subject = objectText codec (.node entries) := by
  obtain ⟨edge, -, ht⟩ := List.mem_flatMap.1 h
  obtain ⟨object, -, rfl⟩ := List.mem_map.1 ht
  rfl

theorem predicate_of_mem_ofEdge {subject : String} {edge : String × Value} {t : Triple}
    (h : t ∈ Triple.ofEdge codec subject edge) : t.predicate = ":" ++ edge.1 := by
  obtain ⟨object, -, rfl⟩ := List.mem_map.1 h
  rfl

/-- The predicates of a node are told apart, since its keys are. -/
theorem nodup_predicates {entries : Node} (h : entries.Distinct) :
    ((edges entries).map fun edge => ":" ++ edge.1).Nodup := by
  have hkeys : ((edges entries).map Prod.fst).Nodup := h.sublist (List.filter_sublist.map _)
  have hcolon : ((edges entries).map Prod.fst).map (":" ++ ·) =
      (edges entries).map fun edge => ":" ++ edge.1 := List.map_map
  rw [← hcolon]
  exact hkeys.map fun _ _ heq => String.append_right_inj _ |>.1 heq

/-- The record of the subject of a node has the members of the node. -/
theorem recordOf_ofNode {entries : Node} (h : DescribableNode ids entries) :
    (recordOf (objectText codec (.node entries)) (Triple.ofNode codec entries)).Perm
      (members codec entries) := by
  have hpredicates := nodup_predicates h.distinct
  have htag : ∀ edge ∈ edges entries,
      ∀ t ∈ Triple.ofEdge codec (objectText codec (.node entries)) edge,
        t.predicate = ":" ++ edge.1 := fun _ _ _ => predicate_of_mem_ofEdge
  have hne : ∀ edge ∈ edges entries,
      Triple.ofEdge codec (objectText codec (.node entries)) edge ≠ [] :=
    fun edge hedge => ofEdge_ne_nil (h.values edge hedge) _ edge.1
  refine List.Perm.cons _ ?_
  refine ((dedup_blocks hpredicates htag hne).map _).trans ?_
  rw [List.map_map]
  refine List.Perm.of_eq (List.map_congr_left fun edge hedge => ?_)
  have hfilter := filter_blocks hpredicates htag hedge
  rw [Function.comp_apply, predicateKey_name, Triple.ofNode, hfilter, Triple.ofEdge, edgeJson,
    List.map_map]
  rfl

theorem locator_injective {r s : Reference} (h : r.locator = s.locator) : r = s := by
  have hvalue := congrArg decodeLocator h
  rw [decodeLocator_locator, decodeLocator_locator] at hvalue
  exact Value.reference.inj hvalue

/-- The subjects of nodes are told apart, since their identifiers are. -/
theorem nodup_subjects (codec : Codec) {blocks : List Node}
    (hnodes : ∀ entries ∈ blocks, DescribableNode ids entries)
    (hdistinct : (blocks.map identifier?).Nodup) :
    (blocks.map fun entries => objectText codec (.node entries)).Nodup := by
  refine (List.Nodup.of_map identifier? hdistinct).map_on fun es hes fs hfs heq => ?_
  obtain ⟨r, hr⟩ := (hnodes es hes).identifier
  obtain ⟨s, hs⟩ := (hnodes fs hfs).identifier
  rw [objectText_node codec hr, objectText_node codec hs] at heq
  have hlocator := congrArg subjectLocator heq
  rw [subjectLocator_bracketed, subjectLocator_bracketed] at hlocator
  refine List.inj_on_of_nodup_map hdistinct hes hfs ?_
  rw [hr, hs, locator_injective hlocator]

/-- Elements in the order of their images. -/
theorem exists_map_of_perm_map {α β : Type} {f : α → β} {items : List α} {images : List β}
    (h : images.Perm (items.map f)) :
    ∃ order : List α, images = order.map f ∧ order.Perm items := by
  have hcomp : (fun (xs : List β) (ys : List α) => xs.Perm (ys.map f)) images items := h
  rw [← List.eq_map_comp_perm] at hcomp
  exact hcomp

/-- **The records that describe a describable tree are those of its nodes.** -/
theorem describes_blocks {blocks : List Node}
    (hnodes : ∀ entries ∈ blocks, DescribableNode ids entries)
    (hdistinct : (blocks.map identifier?).Nodup) {records : List Json}
    (h : Describes (blocks.flatMap (Triple.ofNode codec)) records) :
    ∃ order : List Node, order.Perm blocks ∧ List.Forall₂ (RecordOf codec) order records := by
  have hsubjects := nodup_subjects codec hnodes hdistinct
  have htag : ∀ entries ∈ blocks, ∀ t ∈ Triple.ofNode codec entries,
      t.subject = objectText codec (.node entries) := fun _ _ _ => subject_of_mem_ofNode
  have hne : ∀ entries ∈ blocks, Triple.ofNode codec entries ≠ [] :=
    fun entries hentries => ofNode_ne_nil (hnodes entries hentries)
  obtain ⟨listed, hperm, hrecords⟩ := h
  have hlisted : listed.Perm (blocks.map fun entries =>
      recordOf (objectText codec (.node entries)) (Triple.ofNode codec entries)) := by
    refine hperm.trans (((dedup_blocks hsubjects htag hne).map _).trans ?_)
    rw [List.map_map]
    refine List.Perm.of_eq (List.map_congr_left fun entries hentries => ?_)
    have hfilter := filter_blocks hsubjects htag hentries
    rw [Function.comp_apply, hfilter]
  obtain ⟨order, horder, hblocks⟩ := exists_map_of_perm_map hlisted
  refine ⟨order, hblocks, ?_⟩
  rw [horder, List.forall₂_map_right_iff] at hrecords
  have hdescribable : ∀ entries ∈ order, DescribableNode ids entries :=
    fun entries hentries => hnodes entries (hblocks.mem_iff.1 hentries)
  have hboth := (List.forall₂_and_left order records).2 ⟨hdescribable, List.Forall₂.flip hrecords⟩
  refine hboth.imp ?_
  rintro entries record ⟨hentries, fields, hfields, rfl⟩
  exact ⟨fields, hfields.trans (recordOf_ofNode hentries), rfl⟩

end

end Description

end LinkedData
