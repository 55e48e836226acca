import LinkedData.Proofs.Result.Handles
import LinkedData.Result.Reach
import Mathlib.Logic.Relation
import Mathlib.Order.WellFoundedSet

/-!
# Listing only what nothing links to

With unlinking, a node is left out of the list if some other record was read with a link to it.
What was read is not all that is kept: a record is superseded by a later one with its locator, and a
property by a later one with its name, and the links in them count all the same. So no listed node
is one to which another listed node has a link, but some such nodes can be missing
(`topLevel_unlinked`). Nothing is superseded if locators and names are all different. Then only
nodes are left out that some other node has a link to; and if no links lead round in a circle, every
node can still be reached from one that is listed (`reachable_of_acyclic`).
-/

namespace LinkedData

/-- The locators that a record was read with, its own one left out. -/
def RawRecord.mentions (record : RawRecord) : List String :=
  record.properties.flatMap fun property => property.2.locators

namespace ResultGraph

/-! ## Links that were read -/

/-- The record at the one position was read with a link to the other position. -/
def ReadLink (raws : List RawRecord) (position other : Nat) : Prop :=
  ∃ raw text, raws[position]? = some raw ∧ text ∈ raw.mentions ∧
    LastAt (raws.map (·.locator)) text other

theorem links_linkedProperties (target : String → Option Nat) (record : RawRecord) :
    ((linkedProperties target record).flatMap fun property => property.2.links) =
      record.mentions.filterMap target := by
  rw [linkedProperties, RawRecord.mentions, List.flatMap_map, List.filterMap_flatMap]
  refine List.flatMap_congr fun property _ => ?_
  exact links_linked target property.2

/-- Spliced are the positions to which some other record was read with a link. -/
theorem mem_splicedFrom_iff {raws : List RawRecord} {position : Nat} :
    position ∈ splicedFrom (target? (raws.map (·.locator))) 0 raws ↔
      ∃ i, i ≠ position ∧ ReadLink raws i position := by
  rw [mem_splicedFrom]
  simp only [Nat.zero_add, linksFrom, links_linkedProperties, List.mem_filter, List.mem_filterMap,
    bne_iff_ne, target?_eq_some_iff]
  constructor
  · rintro ⟨i, raw, hraw, ⟨text, htext, hlast⟩, hne⟩
    exact ⟨i, hne.symm, raw, text, hraw, htext, hlast⟩
  · rintro ⟨i, hne, raw, text, hraw, htext, hlast⟩
    exact ⟨i, raw, hraw, ⟨text, htext, hlast⟩, hne.symm⟩

theorem mem_topLevel_unlink {raws : List RawRecord} {position : Nat} :
    position ∈ (ofRecords raws true).topLevel ↔
      position ∈ (ofRecords raws false).topLevel ∧
        ∀ i, ReadLink raws i position → i = position := by
  rw [ofRecords, ofRecords, mem_listedPositions, mem_listedPositions, mem_splicedFrom_iff]
  simp only [not_exists, not_and, Bool.false_eq_true, false_implies, and_true, true_implies]
  refine and_congr_right fun _ => forall_congr' fun i => ?_
  exact ⟨fun h hread => by_contra fun hne => h hne hread, fun h hne hread => hne (h hread)⟩

/-! ## Links that are kept -/

theorem get?_ofRecords (raws : List RawRecord) (unlink : Bool) (position : Nat) :
    (ofRecords raws unlink).get? position =
      raws[position]?.map (nodeOf (target? (raws.map (·.locator)))) := by
  rw [get?, ofRecords, List.getElem?_map]

/-- A link that is kept was read. -/
theorem readLink_of_mem_linksAt {raws : List RawRecord} {unlink : Bool} {position other : Nat}
    (h : other ∈ (ofRecords raws unlink).linksAt position) : ReadLink raws position other := by
  rw [linksAt, get?_ofRecords] at h
  rcases hraw : raws[position]? with _ | raw
  · rw [hraw] at h
    cases h
  · rw [hraw] at h
    obtain ⟨property, hproperty, hlink⟩ := List.mem_flatMap.1 h
    have hread : other ∈ raw.mentions.filterMap (target? (raws.map (·.locator))) := by
      rw [← links_linkedProperties]
      exact List.mem_flatMap.2 ⟨property, Fields.mem_of_mem_ofList hproperty, hlink⟩
    obtain ⟨text, htext, htarget⟩ := List.mem_filterMap.1 hread
    exact ⟨raw, text, hraw, htext, target?_eq_some_iff.1 htarget⟩

/-- If no name comes twice in a record, all links that were read are kept. -/
theorem mem_linksAt_of_readLink {raws : List RawRecord}
    (hnames : ∀ raw ∈ raws, Fields.Distinct raw.properties) (unlink : Bool) {position other : Nat}
    (h : ReadLink raws position other) : other ∈ (ofRecords raws unlink).linksAt position := by
  obtain ⟨raw, text, hraw, htext, hlast⟩ := h
  have hdistinct :
      Fields.Distinct (linkedProperties (target? (raws.map (·.locator))) raw) := by
    rw [linkedProperties, Fields.Distinct, Fields.names_map]
    exact hnames raw (List.mem_of_getElem? hraw)
  rw [linksAt, get?_ofRecords, hraw]
  change other ∈ (Fields.ofList _).flatMap _
  -- among different names, no property is overwritten
  rw [Fields.ofList_eq_self hdistinct, links_linkedProperties]
  exact List.mem_filterMap.2 ⟨text, htext, target?_eq_some_iff.2 hlast⟩

/-! ## Names -/

/-- The local names of properties. -/
def localNames (members : Fields Json) : List String :=
  (members.names.filter fun key => !isRecordKey key).map localName

/-- No two properties of the record have the same local name. -/
def DistinctNames (record : Json) : Prop :=
  ∀ members, record = .object members → (localNames members).Nodup

theorem names_of_rawProperties {codec : Codec} {members : Fields Json}
    {properties : Fields RawProperty} (h : rawProperties codec members = .ok properties) :
    properties.names = localNames members := by
  induction members generalizing properties with
  | nil =>
    obtain rfl := Except.ok.inj h
    rfl
  | cons member rest ih =>
    obtain ⟨key, value⟩ := member
    have hcons : Fields.names ((key, value) :: rest) = key :: Fields.names rest := rfl
    rw [rawProperties] at h
    rw [localNames, hcons, List.filter_cons]
    rcases hkey : isRecordKey key with _ | _
    · rw [hkey, if_neg Bool.false_ne_true, both_eq_ok_iff] at h
      obtain ⟨property, others, -, hothers, rfl⟩ := h
      rw [Bool.not_false, if_pos rfl, List.map_cons]
      exact congrArg (localName key :: ·) (ih hothers)
    · rw [hkey, if_pos rfl] at h
      rw [Bool.not_true, if_neg Bool.false_ne_true]
      exact ih h

theorem distinct_of_rawRecord {codec : Codec} {position : Nat} {record : Json} {raw : RawRecord}
    (hnames : DistinctNames record) (h : rawRecord codec position record = .ok raw) :
    Fields.Distinct raw.properties := by
  obtain ⟨members, rfl, -, hproperties⟩ := rawRecord_eq_ok_iff.1 h
  rw [Fields.Distinct, names_of_rawProperties hproperties]
  exact hnames members rfl

theorem distinct_of_rawRecords {codec : Codec} {records : List Json} {raws : List RawRecord}
    (hnames : ∀ record ∈ records, DistinctNames record)
    (h : rawRecords codec 0 records = .ok raws) :
    ∀ raw ∈ raws, Fields.Distinct raw.properties := by
  intro raw hraw
  obtain ⟨position, record, hrecord, hread⟩ := exists_of_mem_rawRecords h hraw
  exact distinct_of_rawRecord (hnames record hrecord) hread

/-! ## What is listed -/

/-- Another node of the list has a link to the position. -/
def LinkedInList (g : ResultGraph) (position : Nat) : Prop :=
  ∃ other ∈ g.topLevel, other ≠ position ∧ position ∈ g.linksAt other

instance (g : ResultGraph) (position : Nat) : Decidable (g.LinkedInList position) :=
  inferInstanceAs (Decidable (∃ other ∈ g.topLevel, _))

/-- The listed nodes to which no other listed node has a link, in order. -/
def unlinked (g : ResultGraph) : List Nat :=
  g.topLevel.filter fun position => !decide (g.LinkedInList position)

theorem mem_unlinked {g : ResultGraph} {position : Nat} :
    position ∈ g.unlinked ↔ position ∈ g.topLevel ∧ ¬ g.LinkedInList position := by
  rw [unlinked, List.mem_filter, Bool.not_eq_true', decide_eq_false_iff_not]

/-- Unlinking takes the spliced nodes out of the list. -/
theorem topLevel_unlink (raws : List RawRecord) :
    (ofRecords raws true).topLevel = (ofRecords raws false).topLevel.filter fun position =>
      !(splicedFrom (target? (raws.map (·.locator))) 0 raws).contains position := by
  rw [ofRecords, ofRecords, listedPositions, listedPositions, List.filter_filter]
  refine List.filter_congr fun position _ => ?_
  rw [Bool.true_and, Bool.false_and, Bool.not_false, Bool.and_true, Bool.and_comm]

/-- Every node is listed if all locators are different. -/
theorem mem_topLevel_of_nodup {raws : List RawRecord} (h : (raws.map (·.locator)).Nodup)
    {position : Nat} :
    position ∈ (ofRecords raws false).topLevel ↔ position < raws.length := by
  rw [ofRecords, mem_listedPositions]
  constructor
  · rintro ⟨⟨locator, hlast⟩, -⟩
    have hlt := hlast.lt
    rwa [List.length_map] at hlt
  · intro hlt
    have hget := List.getElem?_eq_getElem (l := raws.map (·.locator)) (i := position)
      (by rwa [List.length_map])
    exact ⟨⟨_, lastAt_of_nodup h hget⟩, fun hunlink => absurd hunlink Bool.false_ne_true⟩

theorem readLink_of_linkedInList {raws : List RawRecord} {position : Nat}
    (h : (ofRecords raws false).LinkedInList position) :
    ∃ i, i ≠ position ∧ ReadLink raws i position := by
  obtain ⟨other, -, hne, hlink⟩ := h
  exact ⟨other, hne, readLink_of_mem_linksAt hlink⟩

/-- If nothing is superseded, every other node that links to a position is in the list. -/
theorem linkedInList_of_readLink {raws : List RawRecord} (hlocators : (raws.map (·.locator)).Nodup)
    (hnames : ∀ raw ∈ raws, Fields.Distinct raw.properties) {i position : Nat}
    (hne : i ≠ position) (h : ReadLink raws i position) :
    (ofRecords raws false).LinkedInList position := by
  refine ⟨i, ?_, hne, mem_linksAt_of_readLink hnames false h⟩
  obtain ⟨raw, -, hraw, -⟩ := h
  exact (mem_topLevel_of_nodup hlocators).2 (List.getElem?_eq_some_iff.1 hraw).1

/-- **What unlinking lists.** Unlinking changes nothing but the list. It lists no node to which
another node of the whole list has a link. Of the others, those are missing to which some other
record was read with a link that no node of the list has kept. If locators and names are all
different, none is missing. -/
theorem topLevel_unlinked {codec : Codec} {response : Json} {g : ResultGraph}
    (h : ofJson codec response false = .ok g) :
    ∃ records raws g', recordsOf response = .ok records ∧
      rawRecords codec 0 records = .ok raws ∧
      ofJson codec response true = .ok g' ∧ g'.nodes = g.nodes ∧
      g'.topLevel.Sublist g.unlinked ∧
      (∀ position ∈ g.unlinked,
        position ∈ g'.topLevel ↔ ∀ i, ReadLink raws i position → i = position) ∧
      (g.locators.Nodup → (∀ record ∈ records, DistinctNames record) →
        g'.topLevel = g.unlinked) := by
  obtain ⟨records, raws, hrecords, hraws, rfl⟩ := ofJson_eq_ok_iff.1 h
  refine ⟨records, raws, ofRecords raws true, hrecords, hraws,
    ofJson_eq_ok_iff.2 ⟨records, raws, hrecords, hraws, rfl⟩, rfl, ?_, fun position hposition => ?_,
    fun hlocators hnames => ?_⟩
  · rw [topLevel_unlink, unlinked]
    refine List.monotone_filter_right _ fun position hkept => ?_
    rw [Bool.not_eq_true', List.contains_eq_mem, decide_eq_false_iff_not] at hkept
    rw [Bool.not_eq_true', decide_eq_false_iff_not]
    exact fun hlinked => hkept (mem_splicedFrom_iff.2 (readLink_of_linkedInList hlinked))
  · rw [mem_topLevel_unlink, and_iff_right (mem_unlinked.1 hposition).1]
  · rw [locators_ofRecords] at hlocators
    rw [topLevel_unlink, unlinked]
    refine List.filter_congr fun position _ => congrArg (!·) ?_
    rw [List.contains_eq_mem, decide_eq_decide, mem_splicedFrom_iff]
    constructor
    · rintro ⟨i, hne, hread⟩
      exact linkedInList_of_readLink hlocators (distinct_of_rawRecords hnames hraws) hne hread
    · exact readLink_of_linkedInList

/-- A record that is linked to from two others, and one that has a link to itself in a list. -/
def gathering : Json :=
  .array [
    .object [("@id", .string "urn:a"), (":kids", .array [.object [("@id", .string "urn:b")],
      .object [("@id", .string "urn:c")]])],
    .object [("@id", .string "urn:b"), (":friend", .object [("@id", .string "urn:d")])],
    .object [("@id", .string "urn:c"), (":friend", .object [("@id", .string "urn:d")])],
    .object [("@id", .string "urn:d"), (":knows", .array [.string "x",
      .object [("@id", .string "urn:d")]])],
    .object [("@context", .null), (":name", .string "e")]]

theorem distinctNames_gathering {records : List Json}
    (h : recordsOf gathering = .ok records) : ∀ record ∈ records, DistinctNames record := by
  obtain rfl := Except.ok.inj h
  have hobject : ∀ {members : Fields Json}, (localNames members).Nodup →
      DistinctNames (.object members) := by
    rintro members hnodup _ ⟨⟩
    exact hnodup
  refine List.forall_mem_cons.2 ⟨hobject (by decide),
    List.forall_mem_cons.2 ⟨hobject (by decide), ?_⟩⟩
  refine List.forall_mem_cons.2 ⟨hobject (by decide),
    List.forall_mem_cons.2 ⟨hobject (by decide), ?_⟩⟩
  exact List.forall_mem_singleton.2 (hobject (by decide))

theorem topLevel_unlinked_gathering :
    ∃ g g', ofJson .empty gathering false = .ok g ∧ ofJson .empty gathering true = .ok g' ∧
      g.locators.Nodup ∧ g.topLevel = [0, 1, 2, 3, 4] ∧ g'.topLevel = [0, 4] ∧
      g'.topLevel = g.unlinked := by
  obtain ⟨g, hg, hnodup, hlisted, hunlinked⟩ : ∃ g, ofJson .empty gathering false = .ok g ∧
      g.locators.Nodup ∧ g.topLevel = [0, 1, 2, 3, 4] ∧ g.unlinked = [0, 4] := by
    exact ⟨_, rfl, by decide +kernel, by decide +kernel, by decide +kernel⟩
  obtain ⟨records, raws, g', hrecords, -, hg', -, -, -, hall⟩ := topLevel_unlinked hg
  have hsame := hall hnodup (distinctNames_gathering hrecords)
  exact ⟨g, g', hg, hg', hnodup, hlisted, hsame.trans hunlinked, hsame⟩

/-- A record that is superseded, and has a link to its own locator. -/
def supersededSelf : Json :=
  .array [
    .object [("@id", .string "urn:a"), (":self", .object [("@id", .string "urn:a")])],
    .object [("@id", .string "urn:a"), (":name", .string "a")]]

/-- **A node can be missing that nothing links to.** The only node of the response is taken for one
that another node has a link to, since it superseded a record with a link. -/
theorem unlinked_node_missing :
    ∃ g g', ofJson .empty supersededSelf false = .ok g ∧
      ofJson .empty supersededSelf true = .ok g' ∧
      g.topLevel = [1] ∧ g.unlinked = [1] ∧ g'.topLevel = [] := by
  exact ⟨_, _, rfl, rfl, by decide +kernel, by decide +kernel, by decide +kernel⟩

/-! ## What can be reached -/

/-- The node at the one position has a link to the other position. -/
def LinksTo (g : ResultGraph) (position other : Nat) : Prop :=
  other ∈ g.linksAt position

/-- The node at the one position has a link to the other position, and that is another node. -/
def LinksToOther (g : ResultGraph) (position other : Nat) : Prop :=
  other ≠ position ∧ g.LinksTo position other

/-- If nothing is superseded, a node that is not listed has a link to it from another node. -/
theorem exists_linksToOther {raws : List RawRecord} (hlocators : (raws.map (·.locator)).Nodup)
    (hnames : ∀ raw ∈ raws, Fields.Distinct raw.properties) {position : Nat}
    (hlt : position < raws.length) (h : position ∉ (ofRecords raws true).topLevel) :
    ∃ i < raws.length, (ofRecords raws true).LinksToOther i position := by
  rw [mem_topLevel_unlink, mem_topLevel_of_nodup hlocators, and_iff_right hlt] at h
  push Not at h
  obtain ⟨i, hread, hne⟩ := h
  have hlink := mem_linksAt_of_readLink hnames true hread
  obtain ⟨raw, -, hraw, -⟩ := hread
  exact ⟨i, (List.getElem?_eq_some_iff.1 hraw).1, hne.symm, hlink⟩

/-- Positions below a bound are ordered by the links from one node to another, if these lead round
in no circle. -/
theorem wellFoundedOn_linksToOther {g : ResultGraph}
    (hacyclic : ∀ position, ¬ Relation.TransGen g.LinksToOther position position) (bound : Nat) :
    {position | position < bound}.WellFoundedOn g.LinksToOther := by
  have : IsStrictOrder Nat (Relation.TransGen g.LinksToOther) :=
    { irrefl := hacyclic
      trans := fun _ _ _ => Relation.TransGen.trans }
  have hwf := (Set.finite_lt_nat bound).wellFoundedOn (r := Relation.TransGen g.LinksToOther)
  exact hwf.mono' fun _ _ _ _ => Relation.TransGen.single

/-- **Unlinking loses no node of an acyclic graph.** If locators and names are all different, and
links between different nodes lead round in no circle, then every node can be reached by links from
a listed one: it is listed itself, or some other node has a link to it that can be reached. -/
theorem reachable_of_acyclic {codec : Codec} {response : Json} {records : List Json}
    {g : ResultGraph} (hrecords : recordsOf response = .ok records)
    (h : ofJson codec response true = .ok g) (hlocators : g.locators.Nodup)
    (hnames : ∀ record ∈ records, DistinctNames record)
    (hacyclic : ∀ position, ¬ Relation.TransGen g.LinksToOther position position) :
    ∀ position < g.nodes.length,
      ∃ root ∈ g.topLevel, Relation.ReflTransGen g.LinksTo root position := by
  obtain ⟨read, raws, hread, hraws, rfl⟩ := ofJson_eq_ok_iff.1 h
  obtain rfl := Except.ok.inj (hrecords.symm.trans hread)
  rw [locators_ofRecords] at hlocators
  have hdistinct := distinct_of_rawRecords hnames hraws
  have hlength : (ofRecords raws true).nodes.length = raws.length := List.length_map _
  rw [hlength]
  intro position hposition
  -- the induction goes from a node back to the nodes that link to it
  refine (wellFoundedOn_linksToOther hacyclic raws.length).induction
    (P := fun position => ∃ root ∈ (ofRecords raws true).topLevel,
      Relation.ReflTransGen (ofRecords raws true).LinksTo root position) hposition ?_
  intro position hlt ih
  by_cases hlisted : position ∈ (ofRecords raws true).topLevel
  · exact ⟨position, hlisted, .refl⟩
  · obtain ⟨i, hi, hlink⟩ := exists_linksToOther hlocators hdistinct hlt hlisted
    obtain ⟨root, hroot, hreach⟩ := ih i hi hlink
    exact ⟨root, hroot, hreach.tail hlink.2⟩

/-- Links that never lead back lead round in no circle. -/
theorem acyclic_of_le {g : ResultGraph}
    (h : ∀ position < g.nodes.length, ∀ other ∈ g.linksAt position, position ≤ other) :
    ∀ position, ¬ Relation.TransGen g.LinksToOther position position := by
  have hlt : ∀ i j, g.LinksToOther i j → i < j := by
    rintro i j ⟨hne, hlink⟩
    refine Nat.lt_of_le_of_ne (h i ?_ j hlink) hne.symm
    by_contra hge
    rw [LinksTo, linksAt, get?, List.getElem?_eq_none (Nat.le_of_not_lt hge)] at hlink
    cases hlink
  intro position hcycle
  have hself := hcycle.lift id hlt
  rw [Relation.transGen_eq_self] at hself
  exact Nat.lt_irrefl position hself

theorem reachable_of_acyclic_gathering :
    ∃ g, ofJson .empty gathering true = .ok g ∧ g.locators.Nodup ∧ g.topLevel = [0, 4] ∧
      (∀ position, ¬ Relation.TransGen g.LinksToOther position position) ∧ g.LinksTo 3 3 ∧
      ∃ root ∈ g.topLevel, Relation.ReflTransGen g.LinksTo root 3 := by
  obtain ⟨g, hg, hnodup, hlisted, hforward, hself, hlength⟩ :
      ∃ g, ofJson .empty gathering true = .ok g ∧ g.locators.Nodup ∧ g.topLevel = [0, 4] ∧
        (∀ position < g.nodes.length, ∀ other ∈ g.linksAt position, position ≤ other) ∧
        3 ∈ g.linksAt 3 ∧ 3 < g.nodes.length := by
    exact ⟨_, rfl, by decide +kernel, by decide +kernel, by decide +kernel, by decide +kernel,
      by decide +kernel⟩
  exact ⟨g, hg, hnodup, hlisted, acyclic_of_le hforward, hself,
    reachable_of_acyclic rfl hg hnodup (distinctNames_gathering rfl) (acyclic_of_le hforward) 3
      hlength⟩

end ResultGraph

end LinkedData
