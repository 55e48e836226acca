import LinkedData.Proofs.Result.Description
import LinkedData.Result.Decode

/-!
# Reading the record of a node

Of the record of a node, reading leaves the locator of the node and its edges: behind each key
the locators and values of its objects (`edgeRaw`). No two objects have equal documents, so
none is dropped as repeated; and the order of the members only shows in the order of the
properties (`rawProperties_perm`).
-/

namespace LinkedData

open Literal

/-- What a property that was read stands for as long as no link is made. -/
def RawProperty.bare : RawProperty → Value
  | .value v => v
  | .locator text => decodeLocator text
  | .list _ => .null

namespace ResultGraph

open Description

/-! ## Objects -/

/-- What an exact scalar is read as, before links are made. -/
def pointerRaw : Value → RawProperty
  | .reference r => .locator r.locator
  | .iri locator => .locator locator
  | .term name => .locator (Vocabulary.terms ++ name)
  | v => .value v

/-- What an object is read as. -/
def objectRaw (v : Value) : RawProperty :=
  pointerRaw v.pointer

/-- What stands behind a key is read as. -/
def edgeRaw (v : Value) : RawProperty :=
  collapse (v.objects.map objectRaw)

/-- An exact scalar is read as itself, or as a locator that stands for it. -/
theorem pointerRaw_cases {v : Value} (h : v.Exact) :
    pointerRaw v = .value v ∨ ∃ text, pointerRaw v = .locator text ∧ decodeLocator text = v := by
  cases h with
  | reference r => exact .inr ⟨_, rfl, decodeLocator_locator r⟩
  | term _ _ => exact .inr ⟨_, rfl, decodeLocator_terms _⟩
  | iri foreign => exact .inr ⟨_, rfl, foreign⟩
  | _ => exact .inl rfl

theorem bare_pointerRaw {v : Value} (h : v.Exact) : (pointerRaw v).bare = v := by
  rcases pointerRaw_cases h with hv | ⟨text, hv, htext⟩
  · rw [hv]
    rfl
  · rw [hv]
    exact htext

section

variable {codec : Codec} {key : String}

theorem rawProperty_literal (codec : Codec) (key : String) (quoted : List Char)
    (datatype : Option String) :
    rawProperty codec key (Token.literal quoted datatype).json =
      ((Token.literal quoted datatype).value codec).map .value := by
  cases datatype with
  | none => rfl
  | some datatype => rfl

theorem rawProperty_json {v : Value} {token : Token} (h : codec.Carries v token)
    (hv : pointerRaw v = .value v)
    (hliteral : ∃ quoted datatype, token = .literal quoted datatype) :
    rawProperty codec key token.json = .ok (pointerRaw v) := by
  obtain ⟨quoted, datatype, rfl⟩ := hliteral
  rw [rawProperty_literal, h.2.2, hv]
  rfl

/-- The document for an exact scalar is read as it should be. -/
theorem exists_token (codec : Codec) {v : Value} (h : v.Exact) : ∃ token : Token,
    codec.encodeLiteral v = .ok token.text ∧ token.WellFormed ∧
      ∀ key, rawProperty codec key token.json = .ok (pointerRaw v) := by
  cases h with
  | null =>
    have h := codec.carries_null
    exact ⟨_, h.1, h.2.1, fun key => rawProperty_json h rfl ⟨_, _, rfl⟩⟩
  | boolean b =>
    have h := codec.carries_boolean b
    exact ⟨_, h.1, h.2.1, fun key => rawProperty_json h rfl ⟨_, _, rfl⟩⟩
  | integer n =>
    have h := codec.carries_integer n
    exact ⟨_, h.1, h.2.1, fun key => rawProperty_json h rfl ⟨_, _, rfl⟩⟩
  | string untagged present =>
    have h := codec.carries_string untagged present
    exact ⟨_, h.1, h.2.1, fun key => rawProperty_json h rfl ⟨_, _, rfl⟩⟩
  | reference r =>
    have h := codec.carries_reference r
    exact ⟨_, h.1, h.2.1, fun key => rfl⟩
  | term unreserved unwrapped =>
    have h := codec.carries_term unreserved unwrapped
    exact ⟨_, h.1, h.2.1, fun key => rfl⟩
  | iri foreign =>
    have h := codec.carries_iri foreign
    exact ⟨_, h.1, h.2.1, fun key => rfl⟩

/-- The document of an object is that of a token, and is read as the object. -/
theorem exists_json {v : Value} (h : v.pointer.Exact) (codec : Codec) : ∃ token : Token,
    objectJson (objectText codec v) = token.json ∧
      ∀ key, rawProperty codec key token.json = .ok (objectRaw v) := by
  obtain ⟨token, htext, hwell, hraw⟩ := exists_token codec h
  refine ⟨token, ?_, hraw⟩
  rw [objectJson, objectText_eq htext, Token.ofText?_text hwell]

theorem rawProperty_objectJson {v : Value} (h : v.pointer.Exact) (codec : Codec) (key : String) :
    rawProperty codec key (objectJson (objectText codec v)) = .ok (objectRaw v) := by
  obtain ⟨token, hjson, hraw⟩ := exists_json h codec
  rw [hjson]
  exact hraw key

/-! ## Repetitions -/

/-- Documents of tokens are equal only if they are the same. -/
theorem json_eq_of_equals {s t : Token} (h : s.json.equals t.json = true) : s.json = t.json := by
  rcases s with ⟨quoted, _ | datatype⟩ | text | text <;>
    rcases t with ⟨quoted', _ | datatype'⟩ | text' | text' <;>
    simp_all [Token.json, Json.equals, Json.membersWithin, Fields.get?, Vocabulary.idKey]

theorem pointer_eq_of_equals {x y : Value} (hx : x.pointer.Exact) (hy : y.pointer.Exact)
    (h : (objectJson (objectText codec x)).equals (objectJson (objectText codec y)) = true) :
    x.pointer = y.pointer := by
  obtain ⟨s, hs, hxraw⟩ := exists_json hx codec
  obtain ⟨t, ht, hyraw⟩ := exists_json hy codec
  rw [hs, ht] at h
  have hraw := hxraw ""
  rw [json_eq_of_equals h, hyraw ""] at hraw
  rw [← bare_pointerRaw hx, ← bare_pointerRaw hy]
  exact congrArg RawProperty.bare (Except.ok.inj hraw).symm

/-- None of several different objects is dropped. -/
theorem rawItems_objects (codec : Codec) (key : String) (seen items : List Value)
    (hexact : ∀ object ∈ seen ++ items, object.pointer.Exact)
    (hdistinct : ((seen ++ items).map Value.pointer).Nodup) :
    rawItems codec key (seen.map fun object => objectJson (objectText codec object))
        (items.map fun object => objectJson (objectText codec object)) =
      .ok (items.map objectRaw) := by
  induction items generalizing seen with
  | nil => rfl
  | cons item rest ih =>
    have happend : seen ++ item :: rest = (seen ++ [item]) ++ rest := by
      rw [List.append_assoc, List.singleton_append]
    have hitem : item.pointer.Exact :=
      hexact item (List.mem_append_right seen List.mem_cons_self)
    have hnew : (seen.map fun object => objectJson (objectText codec object)).any
        (·.equals (objectJson (objectText codec item))) = false := by
      rw [List.any_eq_false]
      intro json hjson hequals
      obtain ⟨other, hother, rfl⟩ := List.mem_map.1 hjson
      have heq := pointer_eq_of_equals (hexact other (List.mem_append_left _ hother)) hitem hequals
      rw [List.map_append, List.nodup_append] at hdistinct
      exact hdistinct.2.2 _ (List.mem_map_of_mem hother) _ List.mem_cons_self heq
    rw [happend] at hexact hdistinct
    have hrest := ih (seen ++ [item]) hexact hdistinct
    rw [List.map_append, List.map_singleton] at hrest
    rw [List.map_cons, rawItems, hnew, if_neg Bool.false_ne_true,
      rawProperty_objectJson hitem codec key, hrest]
    rfl

/-- What stands behind a key is read as it should be. -/
theorem rawProperty_edgeJson {v : Value} (codec : Codec) (key : String)
    (hexact : ∀ object ∈ v.objects, object.pointer.Exact)
    (hdistinct : (v.objects.map Value.pointer).Nodup) :
    rawProperty codec key (edgeJson codec v) = .ok (edgeRaw v) := by
  have hseveral : rawItems codec key []
      (v.objects.map fun object => objectJson (objectText codec object)) =
        .ok (v.objects.map objectRaw) :=
    rawItems_objects codec key [] v.objects hexact hdistinct
  rw [edgeJson, edgeRaw, arrayOf.eq_def]
  split
  · rename_i single hsingle
    obtain ⟨object, hobject, rfl⟩ := List.map_eq_singleton_iff.1 hsingle
    rw [hobject] at hexact ⊢
    exact rawProperty_objectJson (hexact object (List.mem_singleton_self object)) codec key
  · rw [rawProperty, hseveral]
    rfl

/-! ## Keys -/

/-- What follows the last `#` has none. -/
theorem not_mem_afterLastHash (cs : List Char) : '#' ∉ afterLastHash cs := by
  rw [afterLastHash, List.mem_reverse]
  intro h
  exact absurd (List.mem_takeWhile_imp h) (by decide)

/-- Nothing is cut off if there is no `#`. -/
theorem afterLastHash_eq_self_iff {cs : List Char} : afterLastHash cs = cs ↔ '#' ∉ cs := by
  constructor
  · intro h
    rw [← h]
    exact not_mem_afterLastHash cs
  · intro h
    have hall : ∀ c ∈ cs.reverse, (c != '#') = true := by
      intro c hc
      rw [bne_iff_ne]
      rintro rfl
      exact h (List.mem_reverse.1 hc)
    rw [afterLastHash, List.takeWhile_eq_self_iff.2 hall, List.reverse_reverse]

/-- What stands in front of a `#` does not count. -/
theorem afterLastHash_append (before cs : List Char) :
    afterLastHash (before ++ '#' :: cs) = afterLastHash cs := by
  rw [afterLastHash, List.reverse_append, List.reverse_cons, List.append_assoc,
    List.takeWhile_append]
  split
  · rename_i hwhole
    rw [afterLastHash, (List.takeWhile_prefix _).eq_of_length hwhole]
    simp
  · rw [afterLastHash]

/-- A namespace that ends with `#`, and in which no key is cut elsewhere. -/
structure HashNamespace (ns : String) : Prop where
  /-- no name in it is the key of a type -/
  type : Text.Apart ns "@type"
  /-- it is not abbreviated to a colon -/
  colon : Text.Apart ":" ns
  /-- its last character -/
  hash : ['#'] <:+ ns.toList

theorem hashNamespace_terms : HashNamespace Vocabulary.terms :=
  ⟨by decide +kernel, by decide +kernel, by decide +kernel⟩

/-- The local name of a key in such a namespace is what follows the last `#` of its name. -/
theorem HashNamespace.localName_append {ns : String} (h : HashNamespace ns) (name : String) :
    localName (ns ++ name) = String.ofList (afterLastHash name.toList) := by
  obtain ⟨before, hbefore⟩ := h.hash
  rw [localName, if_neg (h.type.append_ne name), h.colon.after?_eq_none name]
  simp only
  rw [String.toList_append, ← hbefore, List.append_assoc, List.singleton_append,
    afterLastHash_append]

/-- It is the name if there is no `#` in it. -/
theorem HashNamespace.localName_append_eq_iff {ns : String} (h : HashNamespace ns)
    {name : String} : localName (ns ++ name) = name ↔ '#' ∉ name.toList := by
  rw [h.localName_append, ← String.toList_inj, String.toList_ofList, afterLastHash_eq_self_iff]

theorem isRecordKey_terms (name : String) : isRecordKey (Vocabulary.terms ++ name) = false := by
  have hid : Text.Apart Vocabulary.terms Vocabulary.idKey := by decide +kernel
  have hcontext : Text.Apart Vocabulary.terms "@context" := by decide +kernel
  rw [isRecordKey, Bool.or_eq_false_iff, beq_eq_false_iff_ne, beq_eq_false_iff_ne]
  exact ⟨hid.append_ne name, hcontext.append_ne name⟩

/-! ## Members -/

/-- Is the member a property of the record? -/
def isProperty (member : String × Json) : Bool :=
  !isRecordKey member.1

/-- The member is read as the property. -/
def ReadAs (codec : Codec) (member : String × Json) (property : String × RawProperty) : Prop :=
  property.1 = localName member.1 ∧ rawProperty codec member.1 member.2 = .ok property.2

/-- Reading goes member by member. -/
theorem rawProperties_iff {fields : List (String × Json)}
    {properties : List (String × RawProperty)} :
    rawProperties codec fields = .ok properties ↔
      List.Forall₂ (ReadAs codec) (fields.filter isProperty) properties := by
  induction fields generalizing properties with
  | nil =>
    rw [rawProperties, List.filter_nil, List.forall₂_nil_left_iff]
    exact ⟨fun h => (Except.ok.inj h).symm, fun h => congrArg Except.ok h.symm⟩
  | cons field rest ih =>
    obtain ⟨key, value⟩ := field
    rw [rawProperties]
    rcases hkey : isRecordKey key with _ | _
    · have hpos : isProperty (key, value) = true := by
        rw [isProperty, hkey]
        rfl
      rw [if_neg Bool.false_ne_true, List.filter_cons_of_pos hpos, List.forall₂_cons_left_iff,
        both_eq_ok_iff]
      constructor
      · rintro ⟨property, others, hproperty, hothers, rfl⟩
        exact ⟨_, others, ⟨rfl, hproperty⟩, ih.1 hothers, rfl⟩
      · rintro ⟨⟨name, property⟩, others, ⟨hname, hproperty⟩, hothers, rfl⟩
        obtain rfl : name = localName key := hname
        exact ⟨property, others, hproperty, ih.2 hothers, rfl⟩
    · have hneg : ¬ isProperty (key, value) = true := by
        rw [isProperty, hkey]
        exact Bool.false_ne_true
      rw [if_pos rfl, List.filter_cons_of_neg hneg]
      exact ih

/-- The order of the members shows in the order of the properties only. -/
theorem rawProperties_perm {fields members : Fields Json} (h : fields.Perm members)
    {properties : List (String × RawProperty)}
    (hread : rawProperties codec members = .ok properties) :
    ∃ read, rawProperties codec fields = .ok read ∧ read.Perm properties := by
  obtain ⟨read, hfields, hperm⟩ := List.perm_comp_forall₂ (h.filter _) (rawProperties_iff.1 hread)
  exact ⟨read, rawProperties_iff.2 hfields, hperm⟩

/-- The properties of a node, before links are made. -/
def rawEdges (entries : Node) : List (String × RawProperty) :=
  (edges entries).map fun edge => (edge.1, edgeRaw edge.2)

/-- The members of a node are read as its edges. -/
theorem rawProperties_members {entries : Node}
    (hkeys : ∀ edge ∈ edges entries, PlainKey edge.1)
    (hread : ∀ edge ∈ edges entries, ∀ key,
      rawProperty codec key (edgeJson codec edge.2) = .ok (edgeRaw edge.2)) :
    rawProperties codec (members codec entries) = .ok (rawEdges entries) := by
  have hid : ¬ isProperty (Vocabulary.idKey,
      .string (subjectLocator (objectText codec (.node entries)))) = true :=
    Bool.false_ne_true
  have hedges : (members codec entries).filter isProperty =
      (edges entries).map fun edge => (Vocabulary.terms ++ edge.1, edgeJson codec edge.2) := by
    rw [members, List.filter_cons_of_neg hid, List.filter_eq_self]
    intro member hmember
    obtain ⟨edge, -, rfl⟩ := List.mem_map.1 hmember
    rw [isProperty, isRecordKey_terms]
    rfl
  rw [rawProperties_iff, hedges, rawEdges, List.forall₂_map_left_iff, List.forall₂_map_right_iff,
    List.forall₂_same]
  intro edge hedge
  have hname := hashNamespace_terms.localName_append_eq_iff.2 (hkeys edge hedge).whole
  exact ⟨hname.symm, hread edge hedge _⟩

/-! ## Records -/

/-- The locator that a node is described under. -/
def nodeLocator (entries : Node) : String :=
  match identifier? entries with
  | some (.reference r) => r.locator
  | _ => ""

/-- The record was read from one of the node. -/
structure ReadFrom (entries : Node) (raw : RawRecord) : Prop where
  /-- the locator is that of the node -/
  locator : raw.locator = nodeLocator entries
  /-- the properties are the edges of the node, in some order -/
  properties : raw.properties.Perm (rawEdges entries)

theorem nodeLocator_eq {entries : Node} {r : Reference}
    (h : identifier? entries = some (.reference r)) : nodeLocator entries = r.locator := by
  rw [nodeLocator, h]

theorem subjectLocator_node {entries : Node} {r : Reference}
    (h : identifier? entries = some (.reference r)) (codec : Codec) :
    subjectLocator (objectText codec (.node entries)) = nodeLocator entries := by
  rw [objectText_node codec h, subjectLocator_bracketed, nodeLocator_eq h]

theorem distinct_members {entries : Node} (h : entries.Distinct) (codec : Codec) :
    (members codec entries).Distinct := by
  have hnames : (members codec entries).names =
      Vocabulary.idKey :: ((edges entries).map Prod.fst).map (Vocabulary.terms ++ ·) := by
    rw [members, Fields.names, List.map_cons, List.map_map, List.map_map]
    rfl
  have hkeys : ((edges entries).map Prod.fst).Nodup := h.sublist (List.filter_sublist.map _)
  rw [Fields.Distinct, hnames, List.nodup_cons]
  constructor
  · intro hmem
    obtain ⟨key, -, hkey⟩ := List.mem_map.1 hmem
    have hrecord := isRecordKey_terms key
    rw [hkey] at hrecord
    cases hrecord
  · exact hkeys.map fun _ _ heq => String.append_right_inj _ |>.1 heq

/-- **The record of a node is read as the node**, whatever the order of its members. -/
theorem rawRecord_recordOf {root entries : Node} (h : (Value.node root).Describable)
    (hmem : entries ∈ (Value.node root).preorder) {record : Json}
    (hrecord : RecordOf codec entries record) (position : Nat) :
    ∃ raw, rawRecord codec position record = .ok raw ∧ ReadFrom entries raw := by
  obtain ⟨fields, hperm, rfl⟩ := hrecord
  have hnode := h.nodes entries hmem
  obtain ⟨r, hr⟩ := hnode.identifier
  have hdistinct : fields.Distinct :=
    (hperm.map Prod.fst).nodup_iff.2 (distinct_members hnode.distinct codec)
  have hlocator : locatorOf position fields = .ok (nodeLocator entries) := by
    have hid := hdistinct.get?_of_mem (hperm.mem_iff.2 List.mem_cons_self)
    rw [locatorOf, hid, subjectLocator_node hr]
  have hmembers : rawProperties codec (members codec entries) = .ok (rawEdges entries) :=
    rawProperties_members hnode.keys fun edge hedge key =>
      rawProperty_edgeJson codec key (fun _ hobject => h.exact_pointer hmem hedge hobject)
        (h.nodup_objects hmem hedge)
  obtain ⟨read, hread, hproperties⟩ := rawProperties_perm hperm hmembers
  refine ⟨⟨nodeLocator entries, read⟩, ?_, rfl, hproperties⟩
  rw [rawRecord, hlocator, hread]
  rfl

theorem rawRecords_recordOf {root : Node} (h : (Value.node root).Describable)
    {order : List Node} {records : List Json}
    (hrecords : List.Forall₂ (RecordOf codec) order records)
    (horder : ∀ entries ∈ order, entries ∈ (Value.node root).preorder) (position : Nat) :
    ∃ raws, rawRecords codec position records = .ok raws ∧ List.Forall₂ ReadFrom order raws := by
  induction hrecords generalizing position with
  | nil => exact ⟨[], rfl, .nil⟩
  | cons hrecord _ ih =>
    obtain ⟨raw, hraw, hread⟩ := rawRecord_recordOf h (horder _ List.mem_cons_self) hrecord position
    obtain ⟨raws, hraws, hreads⟩ :=
      ih (fun entries hentries => horder entries (List.mem_cons_of_mem _ hentries)) (position + 1)
    refine ⟨raw :: raws, ?_, .cons hread hreads⟩
    rw [rawRecords, hraw, hraws]
    rfl

end

end ResultGraph

end LinkedData
