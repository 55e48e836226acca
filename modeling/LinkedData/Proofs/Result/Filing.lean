import LinkedData.Proofs.Result.Finding

/-!
# Properties under local names

A record is filed member by member under the local names of the keys. Several keys can have one
local name, and then the last of them is kept. So under each local name a decoded node has what the
last member of that name is read and linked as, and it has nothing else (`Holds`). Its identifier
is put in front when it is expanded, and stays there if no member is filed under `@id`
(`filed_last`).
-/

namespace LinkedData

namespace Fields

variable {α : Type}

/-- Of several fields with a name, the last one that is set gives the value. -/
theorem get?_ofList_append {before after : Fields α} {name : String} (value : α)
    (h : name ∉ after.names) :
    get? name (ofList (before ++ (name, value) :: after)) = some value := by
  rw [ofList, List.foldl_append, List.foldl_cons, get?_foldl_set_of_not_mem h, get?_set, if_pos rfl]

/-- Fields have the names that were set. -/
theorem mem_names_of_mem_names_ofList {pairs : Fields α} {name : String}
    (h : name ∈ (ofList pairs).names) : name ∈ pairs.names := by
  obtain ⟨pair, hpair, rfl⟩ := List.mem_map.1 h
  exact List.mem_map_of_mem (mem_of_mem_ofList hpair)

end Fields

namespace ResultGraph

/-! ## The last member of a name -/

/-- Of the properties of a record that have the local name, the member is the last. -/
def LastFiled (members : Fields Json) (name : String) (member : String × Json) : Prop :=
  ∃ before after, members = before ++ member :: after ∧
    isRecordKey member.1 = false ∧ localName member.1 = name ∧ name ∉ localNames after

theorem localNames_cons (member : String × Json) (rest : Fields Json) :
    localNames (member :: rest) =
      (if isRecordKey member.1 then [] else [localName member.1]) ++ localNames rest := by
  rw [localNames, Fields.names, List.map_cons, List.filter_cons]
  rcases isRecordKey member.1 with _ | _ <;> rfl

/-- Every local name has a last member. -/
theorem exists_lastFiled {members : Fields Json} {name : String} (h : name ∈ localNames members) :
    ∃ member, LastFiled members name member := by
  induction members with
  | nil => cases h
  | cons first rest ih =>
    by_cases hrest : name ∈ localNames rest
    · obtain ⟨member, before, after, rfl, hlast⟩ := ih hrest
      exact ⟨member, first :: before, after, rfl, hlast⟩
    · rw [localNames_cons, List.mem_append, or_iff_left hrest] at h
      rcases hkey : isRecordKey first.1 with _ | _
      · rw [hkey, if_neg Bool.false_ne_true] at h
        exact ⟨first, [], rest, rfl, hkey, (List.mem_singleton.1 h).symm, hrest⟩
      · rw [hkey, if_pos rfl] at h
        cases h

/-! ## Reading and linking -/

/-- The node has the properties of the members: under a local name what the last member of that name
is read and linked as, and nothing under other names. -/
structure Holds (codec : Codec) (target : String → Option Nat) (members : Fields Json)
    (node : DecodedNode) : Prop where
  /-- the last member of each name is kept -/
  kept : ∀ name member, LastFiled members name member → ∃ property,
    rawProperty codec member.1 member.2 = .ok property ∧
      node.properties.get? name = some (linked target property)
  /-- there are no other names -/
  only : ∀ name ∈ node.properties.names, name ∈ localNames members

section

variable {codec : Codec}

/-- Members are read in parts, one after the other. -/
theorem rawProperties_append {members others : Fields Json} {properties : Fields RawProperty}
    (h : rawProperties codec (members ++ others) = .ok properties) :
    ∃ front back, rawProperties codec members = .ok front ∧
      rawProperties codec others = .ok back ∧ properties = front ++ back := by
  rw [rawProperties_iff, List.filter_append] at h
  have hfront := List.forall₂_take_append _ _ _ h.flip
  have hback := List.forall₂_drop_append _ _ _ h.flip
  exact ⟨_, _, rawProperties_iff.2 hfront.flip, rawProperties_iff.2 hback.flip,
    (List.take_append_drop _ _).symm⟩

/-- The last member of a name is read, and no property behind it has the name. -/
theorem LastFiled.exists_read {members : Fields Json} {name : String} {member : String × Json}
    (h : LastFiled members name member) {properties : Fields RawProperty}
    (hread : rawProperties codec members = .ok properties) :
    ∃ property front back, rawProperty codec member.1 member.2 = .ok property ∧
      properties = front ++ (name, property) :: back ∧ name ∉ Fields.names back := by
  obtain ⟨before, after, rfl, hkey, rfl, hlast⟩ := h
  obtain ⟨front, rest, -, hrest, rfl⟩ := rawProperties_append hread
  rw [rawProperties, hkey, if_neg Bool.false_ne_true, both_eq_ok_iff] at hrest
  obtain ⟨property, back, hproperty, hback, rfl⟩ := hrest
  refine ⟨property, front, back, hproperty, rfl, ?_⟩
  rwa [names_of_rawProperties hback]

theorem names_linkedProperties (target : String → Option Nat) (record : RawRecord) :
    Fields.names (linkedProperties target record) = Fields.names record.properties :=
  Fields.names_map (linked target) record.properties

/-- The node of a record has the properties of its members. -/
theorem holds_nodeOf {members : Fields Json} {record : RawRecord}
    (h : rawProperties codec members = .ok record.properties) (target : String → Option Nat) :
    Holds codec target members (nodeOf target record) where
  kept := by
    intro name member hlast
    obtain ⟨property, front, back, hproperty, hsplit, hback⟩ := hlast.exists_read h
    refine ⟨property, hproperty, ?_⟩
    rw [nodeOf, linkedProperties, hsplit, List.map_append, List.map_cons]
    exact Fields.get?_ofList_append _ (by rwa [Fields.names_map])
  only := by
    intro name hname
    rw [← names_of_rawProperties h, ← names_linkedProperties target record]
    exact Fields.mem_names_of_mem_names_ofList hname

theorem holds_of_rawRecord {position : Nat} {members : Fields Json} {raw : RawRecord}
    (h : rawRecord codec position (.object members) = .ok raw) (target : String → Option Nat) :
    Holds codec target members (nodeOf target raw) := by
  obtain ⟨_, hsame, -, hproperties⟩ := rawRecord_eq_ok_iff.1 h
  obtain rfl := Json.object.inj hsame
  exact holds_nodeOf hproperties target

end

/-! ## Expanding -/

/-- A node is expanded with its identifier, unless one of its properties comes in the place. -/
theorem get?_idKey_expand {node : DecodedNode} {r : Reference} (hid : node.id = some r)
    (hname : Vocabulary.idKey ∉ node.properties.names) (link : Nat → Value) {fields : Node}
    (h : node.expand link = .node fields) :
    fields.get? Vocabulary.idKey = some (.reference r) := by
  rw [DecodedNode.expand_eq_foldl] at h
  obtain rfl := Value.node.inj h
  rw [Fields.get?_foldl_set_of_not_mem (by rwa [Fields.names_map]), DecodedNode.idEntry, hid,
    Fields.get?, if_pos rfl]

theorem exists_expand {g : ResultGraph} {position : Nat} {node : DecodedNode}
    (h : g.get? position = some node) : ∃ link, g.toValue position = node.expand link := by
  refine ⟨g.valueOn g.nodes.length [position], ?_⟩
  rw [toValue, valueOn, h]
  rfl

/-! ## What decoding keeps -/

/-- **The last member of a name is kept.** There is a node for each record, and it has the
properties of the record: under each local name what the last member of that name is read and linked
as. It has the name of the locator that the record carries, if that is one of a name; and unless a
member of the record is filed under `@id` itself, the node is expanded with the reference there. -/
theorem filed_last {codec : Codec} {response : Json} {unlink : Bool} {g : ResultGraph}
    (h : ofJson codec response unlink = .ok g) :
    ∃ records, recordsOf response = .ok records ∧ g.nodes.length = records.length ∧
      ∀ position record, records[position]? = some record →
        ∃ members node fields, record = .object members ∧ g.get? position = some node ∧
          g.toValue position = .node fields ∧
          Holds codec (target? g.locators) members node ∧
          (∀ r, node.id = some r ↔ textId? record = some r.locator) ∧
          (Vocabulary.idKey ∉ localNames members →
            ∀ r, node.id = some r → Fields.get? Vocabulary.idKey fields = some (.reference r)) := by
  obtain ⟨records, raws, hrecords, hraws, rfl⟩ := ofJson_eq_ok_iff.1 h
  obtain ⟨hlength, hread⟩ := getElem?_of_rawRecords hraws
  refine ⟨records, hrecords, by rw [ofRecords, List.length_map, hlength], ?_⟩
  intro position record hrecord
  obtain ⟨raw, hraw, hread⟩ := hread position record hrecord
  have hcarries := carries_of_rawRecord hread
  obtain ⟨members, rfl, -⟩ := carries_of_rawRecord hread
  have hget : (ofRecords raws unlink).get? position =
      some (nodeOf (target? (raws.map (·.locator))) raw) := by
    rw [get?_ofRecords, hraw]
    rfl
  obtain ⟨link, hvalue⟩ := exists_expand hget
  have hholds := holds_of_rawRecord hread (target? (raws.map (·.locator)))
  rw [locators_ofRecords]
  refine ⟨members, _, _, rfl, hget, hvalue, hholds, fun r => ?_, fun hname r hid => ?_⟩
  · rw [← carries_locator_iff, ← hcarries.eq_iff]
    exact nameOf?_eq_some_iff
  · exact get?_idKey_expand hid (fun hmem => hname (hholds.only _ hmem)) link rfl

/-- A text, and a link. -/
def acquaintances : Json :=
  .array [.string "x", .object [("@id", .string "urn:b")]]

/-- A record with a name in two vocabularies. -/
def card : Fields Json :=
  [("@id", .string "http://grel.org/ids/id/olga"), ("@context", .null),
    ("http://example.org/x#name", .string "Olga"), (":knows", acquaintances),
    ("http://example.org/y#name", .string "Helga")]

/-- The record, and one that it has a link to. -/
def cards : Json :=
  .array [.object card, .object [("@id", .string "urn:b")]]

theorem filed_last_card :
    ∃ g node fields, ofJson .empty cards true = .ok g ∧ g.get? 0 = some node ∧
      g.toValue 0 = .node fields ∧
      LastFiled card "name" ("http://example.org/y#name", .string "Helga") ∧
      node.properties.get? "name" = some (.value (.string "Helga")) ∧
      LastFiled card "knows" (":knows", acquaintances) ∧
      node.properties.get? "knows" = some (.list [.value (.string "x"), .link 1]) ∧
      node.id = some olga ∧ Vocabulary.idKey ∉ localNames card ∧
      Fields.get? Vocabulary.idKey fields = some (.reference olga) := by
  obtain ⟨g, hg, htarget⟩ : ∃ g, ofJson .empty cards true = .ok g ∧
      target? g.locators "urn:b" = some 1 := by
    exact ⟨_, rfl, by decide +kernel⟩
  obtain ⟨records, hrecords, -, hnodes⟩ := filed_last hg
  obtain rfl := Except.ok.inj hrecords
  obtain ⟨members, node, fields, hmembers, hget, hvalue, hholds, hid, hfront⟩ := hnodes 0 _ rfl
  obtain rfl := Json.object.inj hmembers
  have hname : LastFiled card "name" ("http://example.org/y#name", .string "Helga") :=
    ⟨card.take 4, [], rfl, by decide +kernel, by decide +kernel, List.not_mem_nil⟩
  have hknows : LastFiled card "knows" (":knows", acquaintances) :=
    ⟨card.take 3, card.drop 4, rfl, by decide +kernel, by decide +kernel, by decide +kernel⟩
  have hunfiled : Vocabulary.idKey ∉ localNames card := by decide +kernel
  have holga : node.id = some olga := (hid olga).2 rfl
  obtain ⟨property, hproperty, hkept⟩ := hholds.kept _ _ hname
  obtain rfl := Except.ok.inj hproperty
  obtain ⟨property, hproperty, hlist⟩ := hholds.kept _ _ hknows
  have hread : rawProperty .empty ":knows" acquaintances =
      .ok (.list [.value (.string "x"), .locator "urn:b"]) := rfl
  obtain rfl := Except.ok.inj (hproperty.symm.trans hread)
  rw [linked, linkedItems, linkedItems, linkedItems, linked, linked, htarget] at hlist
  exact ⟨g, node, fields, hg, hget, hvalue, hname, hkept, hknows, hlist, holga, hunfiled,
    hfront hunfiled olga holga⟩

/-- A record in which a name and the identifier come in other vocabularies. -/
def contested : Fields Json :=
  [("@id", .string "http://grel.org/ids/id/olga"), ("http://example.org/x#name", .string "Olga"),
    ("http://example.org/y#name", .string "Helga"), ("http://example.org/z#@id", .string "b")]

/-- **A property can be lost.** Of two properties that are filed under one name only the last is
kept, and a property that is filed under `@id` comes in the place of the identifier. -/
theorem property_overwritten :
    ∃ g node fields, ofJson .empty (.array [.object contested]) false = .ok g ∧
      g.get? 0 = some node ∧ LastAt g.locators node.locator 0 ∧ g.toValue 0 = .node fields ∧
      ("http://example.org/x#name", .string "Olga") ∈ contested ∧
      rawProperty .empty "http://example.org/x#name" (.string "Olga") =
        .ok (.value (.string "Olga")) ∧
      node.properties.get? (localName "http://example.org/x#name") =
        some (.value (.string "Helga")) ∧
      node.id = some olga ∧ Fields.get? Vocabulary.idKey fields = some (.string "b") := by
  refine ⟨_, _, _, rfl, rfl, ?_, rfl, ?_, rfl, rfl, rfl, rfl⟩
  · exact target?_eq_some_iff.1 (by decide +kernel)
  · exact List.mem_cons_of_mem _ List.mem_cons_self

end ResultGraph

end LinkedData
