import LinkedData.Proofs.Stateful
import LinkedData.Result.Decode
import Mathlib.Logic.ExistsUnique

/-!
# Positions that are handed out

A decoded graph hands out positions of its nodes: those of the listed nodes, and those in the
links of its nodes. Each of them is the position of a node, and of the last one with its locator
(`ResultGraph.handles_current`). A locator is looked up from the end, and only positions that were
looked up become links; the listed positions are those that their own locators lead to.
-/

namespace LinkedData

namespace RawProperty

mutual

/-- The locators that a property was read with. -/
def locators : RawProperty → List String
  | .value _ => []
  | .locator text => [text]
  | .list items => locatorsOfItems items

/-- The locators that several properties were read with. -/
def locatorsOfItems : List RawProperty → List String
  | [] => []
  | item :: rest => locators item ++ locatorsOfItems rest

end

end RawProperty

namespace Decoded

theorem toValues_eq_map (link : Nat → Value) (items : List Decoded) :
    toValues link items = items.map (toValue link) := by
  induction items with
  | nil => rfl
  | cons item rest ih => rw [toValues, ih, List.map_cons]

theorem linksOfItems_eq_flatMap (items : List Decoded) :
    linksOfItems items = items.flatMap links := by
  induction items with
  | nil => rfl
  | cons item rest ih => rw [linksOfItems, ih, List.flatMap_cons]

end Decoded

/-- The properties are set one after the other, behind the identifier. -/
theorem DecodedNode.expand_eq_foldl (node : DecodedNode) (link : Nat → Value) :
    node.expand link = .node ((node.properties.map fun property =>
      (property.1, property.2.toValue link)).foldl
        (fun fields pair => Fields.set pair.1 pair.2 fields) node.idEntry) := by
  rw [expand, List.foldl_map]

namespace ResultGraph

/-! ## The last position of a locator -/

/-- The locator stands at the position, and nowhere behind it. -/
def LastAt (locators : List String) (locator : String) (position : Nat) : Prop :=
  locators[position]? = some locator ∧
    ∀ later, position < later → locators[later]? ≠ some locator

theorem LastAt.lt {locators : List String} {locator : String} {position : Nat}
    (h : LastAt locators locator position) : position < locators.length :=
  (List.getElem?_eq_some_iff.1 h.1).1

theorem LastAt.unique {locators : List String} {locator : String} {p q : Nat}
    (hp : LastAt locators locator p) (hq : LastAt locators locator q) : p = q := by
  rcases Nat.lt_trichotomy p q with hlt | heq | hlt
  · exact absurd hq.1 (hp.2 q hlt)
  · exact heq
  · exact absurd hp.1 (hq.2 p hlt)

/-- Among different locators there is no later one to prefer. -/
theorem lastAt_of_nodup {locators : List String} (h : locators.Nodup) {locator : String}
    {position : Nat} (hposition : locators[position]? = some locator) :
    LastAt locators locator position := by
  refine ⟨hposition, fun later hlater hlocator => ?_⟩
  have hlt := (List.getElem?_eq_some_iff.1 hposition).1
  exact Nat.ne_of_lt hlater ((List.getElem?_inj hlt h).1 (hposition.trans hlocator.symm))

theorem lastAt_succ {first locator : String} {rest : List String} {position : Nat} :
    LastAt (first :: rest) locator (position + 1) ↔ LastAt rest locator position := by
  refine and_congr_right fun _ => ⟨fun h later hlater => ?_, fun h later hlater => ?_⟩
  · exact h (later + 1) (Nat.succ_lt_succ hlater)
  · obtain ⟨later, rfl⟩ := Nat.exists_eq_succ_of_ne_zero (Nat.ne_of_gt (Nat.zero_lt_of_lt hlater))
    exact h later (Nat.lt_of_succ_lt_succ hlater)

theorem lastAt_zero {first locator : String} {rest : List String} :
    LastAt (first :: rest) locator 0 ↔ first = locator ∧ locator ∉ rest := by
  constructor
  · intro h
    refine ⟨Option.some.inj h.1, fun hmem => ?_⟩
    obtain ⟨later, hlater⟩ := List.mem_iff_getElem?.1 hmem
    exact h.2 (later + 1) (Nat.succ_pos later) hlater
  · rintro ⟨rfl, hrest⟩
    refine ⟨rfl, fun later hlater hget => hrest ?_⟩
    obtain ⟨later, rfl⟩ := Nat.exists_eq_succ_of_ne_zero (Nat.ne_of_gt hlater)
    exact List.mem_of_getElem? hget

theorem lastPosition?_eq_none_iff {locators : List String} {locator : String} (start : Nat) :
    lastPosition? locator start locators = none ↔ locator ∉ locators := by
  induction locators generalizing start with
  | nil => exact ⟨fun _ => List.not_mem_nil, fun _ => rfl⟩
  | cons first rest ih =>
    rw [lastPosition?, List.mem_cons, not_or, ← ih (start + 1)]
    rcases lastPosition? locator (start + 1) rest with _ | later
    · simp [eq_comm]
    · simp

/-- The look-up finds the last position, counted from where it starts. -/
theorem lastPosition?_eq_some_iff {locators : List String} {locator : String} {start found : Nat} :
    lastPosition? locator start locators = some found ↔
      ∃ position, found = start + position ∧ LastAt locators locator position := by
  induction locators generalizing start found with
  | nil =>
    refine ⟨fun h => ?_, fun ⟨position, _, h⟩ => ?_⟩
    · cases h
    · cases h.1
  | cons first rest ih =>
    rw [lastPosition?]
    rcases hrest : lastPosition? locator (start + 1) rest with _ | later
    · -- the rest does not hold the locator
      rw [lastPosition?_eq_none_iff] at hrest
      dsimp only
      constructor
      · intro h
        obtain ⟨heq, h⟩ := Option.ite_none_right_eq_some.1 h
        exact ⟨0, (Option.some.inj h).symm, lastAt_zero.2 ⟨heq, hrest⟩⟩
      · rintro ⟨_ | position, rfl, h⟩
        · rw [if_pos (lastAt_zero.1 h).1]
        · exact absurd (List.mem_of_getElem? (lastAt_succ.1 h).1) hrest
    · -- the rest holds it, and a later position is preferred to this one
      obtain ⟨position, hlater, hlast⟩ := ih.1 hrest
      dsimp only
      constructor
      · intro h
        obtain rfl := Option.some.inj h
        exact ⟨position + 1, by omega, lastAt_succ.2 hlast⟩
      · rintro ⟨position', rfl, h⟩
        obtain rfl := (lastAt_succ.2 hlast).unique h
        exact congrArg some (by omega)

/-- A locator leads to its last position. -/
theorem target?_eq_some_iff {locators : List String} {locator : String} {position : Nat} :
    target? locators locator = some position ↔ LastAt locators locator position := by
  rw [target?, lastPosition?_eq_some_iff]
  constructor
  · rintro ⟨_, rfl, h⟩
    rwa [Nat.zero_add]
  · intro h
    exact ⟨position, (Nat.zero_add position).symm, h⟩

theorem exists_lastAt {locators : List String} {locator : String} (h : locator ∈ locators) :
    ∃ position, LastAt locators locator position := by
  rcases htarget : target? locators locator with _ | position
  · exact absurd h ((lastPosition?_eq_none_iff 0).1 htarget)
  · exact ⟨position, target?_eq_some_iff.1 htarget⟩

/-! ## Links -/

theorem linkedItems_eq_map (target : String → Option Nat) (items : List RawProperty) :
    linkedItems target items = items.map (linked target) := by
  induction items with
  | nil => rfl
  | cons item rest ih => rw [linkedItems, ih, List.map_cons]

mutual

/-- A property has a link for each of its locators that leads somewhere. -/
theorem links_linked (target : String → Option Nat) :
    ∀ property : RawProperty,
      (linked target property).links = property.locators.filterMap target
  | .value _ => by
    rw [linked, Decoded.links, RawProperty.locators, List.filterMap_nil]
  | .locator text => by
    rw [linked, RawProperty.locators, List.filterMap_cons, List.filterMap_nil]
    rcases target text with _ | position <;> rfl
  | .list items => by
    rw [linked, Decoded.links, RawProperty.locators, linksOfItems_linkedItems target items]

theorem linksOfItems_linkedItems (target : String → Option Nat) :
    ∀ items : List RawProperty,
      Decoded.linksOfItems (linkedItems target items) =
        (RawProperty.locatorsOfItems items).filterMap target
  | [] => by
    rw [linkedItems, Decoded.linksOfItems, RawProperty.locatorsOfItems, List.filterMap_nil]
  | item :: rest => by
    rw [linkedItems, Decoded.linksOfItems, RawProperty.locatorsOfItems, List.filterMap_append,
      links_linked target item, linksOfItems_linkedItems target rest]

end

/-- Every link was looked up. -/
theorem exists_target_of_mem_links {target : String → Option Nat} {position : Nat}
    {property : RawProperty} (h : position ∈ (linked target property).links) :
    ∃ locator, target locator = some position := by
  rw [links_linked, List.mem_filterMap] at h
  obtain ⟨locator, -, hlocator⟩ := h
  exact ⟨locator, hlocator⟩

theorem exists_target_of_mem_nodeOf {target : String → Option Nat} {record : RawRecord}
    {position : Nat} (h : position ∈ (nodeOf target record).links) :
    ∃ locator, target locator = some position := by
  obtain ⟨property, hproperty, hlink⟩ := List.mem_flatMap.1 h
  obtain ⟨raw, -, rfl⟩ := List.mem_map.1 (Fields.mem_of_mem_ofList hproperty)
  exact exists_target_of_mem_links hlink

theorem mem_splicedFrom {target : String → Option Nat} {raws : List RawRecord} {position p : Nat} :
    p ∈ splicedFrom target position raws ↔
      ∃ i raw, raws[i]? = some raw ∧ p ∈ linksFrom target (position + i) raw := by
  induction raws generalizing position with
  | nil =>
    refine ⟨fun h => ?_, fun ⟨i, raw, h, _⟩ => ?_⟩
    · cases h
    · cases h
  | cons first rest ih =>
    rw [splicedFrom, List.mem_append, ih]
    constructor
    · rintro (h | ⟨i, raw, hraw, h⟩)
      · exact ⟨0, first, rfl, h⟩
      · refine ⟨i + 1, raw, hraw, ?_⟩
        rwa [Nat.add_assoc, Nat.add_comm 1 i] at h
    · rintro ⟨i, raw, hraw, h⟩
      cases i with
      | zero =>
        obtain rfl := Option.some.inj hraw
        exact .inl h
      | succ i =>
        refine .inr ⟨i, raw, hraw, ?_⟩
        rwa [Nat.add_assoc, Nat.add_comm 1 i]

/-! ## The positions of a graph -/

/-- The locators of the nodes, in order. -/
def locators (g : ResultGraph) : List String :=
  g.nodes.map (·.locator)

/-- The graph hands out the position: it is that of a listed node, or a node has a link to it. -/
def Issues (g : ResultGraph) (position : Nat) : Prop :=
  position ∈ g.topLevel ∨ ∃ node ∈ g.nodes, position ∈ node.links

theorem locators_ofRecords (records : List RawRecord) (unlink : Bool) :
    (ofRecords records unlink).locators = records.map (·.locator) := by
  rw [locators, ofRecords, List.map_map]
  rfl

/-- Listed are the last positions of locators, but with unlinking not the spliced ones. -/
theorem mem_listedPositions {locators : List String} {spliced : List Nat} {unlink : Bool}
    {position : Nat} :
    position ∈ listedPositions locators spliced unlink ↔
      (∃ locator, LastAt locators locator position) ∧ (unlink = true → position ∉ spliced) := by
  have hspliced : (!(unlink && spliced.contains position)) = true ↔
      (unlink = true → position ∉ spliced) := by
    cases unlink <;> simp
  rw [listedPositions, List.mem_filter, Bool.and_eq_true, beq_iff_eq, Option.bind_eq_some_iff,
    hspliced, List.mem_range]
  simp only [target?_eq_some_iff]
  constructor
  · rintro ⟨-, ⟨locator, -, hlast⟩, hkept⟩
    exact ⟨⟨locator, hlast⟩, hkept⟩
  · rintro ⟨⟨locator, hlast⟩, hkept⟩
    exact ⟨hlast.lt, ⟨locator, hlast.1, hlast⟩, hkept⟩

theorem exists_lastAt_of_issues {records : List RawRecord} {unlink : Bool} {position : Nat}
    (h : (ofRecords records unlink).Issues position) :
    ∃ locator, LastAt (records.map (·.locator)) locator position := by
  rcases h with h | ⟨node, hnode, h⟩
  · exact (mem_listedPositions.1 h).1
  · obtain ⟨record, -, rfl⟩ := List.mem_map.1 hnode
    obtain ⟨locator, htarget⟩ := exists_target_of_mem_nodeOf h
    exact ⟨locator, target?_eq_some_iff.1 htarget⟩

theorem pairwise_topLevel (records : List RawRecord) (unlink : Bool) :
    (ofRecords records unlink).topLevel.Pairwise (· < ·) :=
  List.pairwise_lt_range.filter _

/-- Without unlinking every locator is listed once. -/
theorem existsUnique_topLevel {records : List RawRecord} {locator : String}
    (h : locator ∈ records.map (·.locator)) :
    ∃! position, position ∈ (ofRecords records false).topLevel ∧
      (records.map (·.locator))[position]? = some locator := by
  obtain ⟨position, hlast⟩ := exists_lastAt h
  refine ⟨position, ⟨mem_listedPositions.2 ⟨⟨locator, hlast⟩, nofun⟩, hlast.1⟩, ?_⟩
  rintro other ⟨hlisted, hother⟩
  obtain ⟨⟨found, hfound⟩, -⟩ := mem_listedPositions.1 hlisted
  obtain rfl := Option.some.inj (hfound.1.symm.trans hother)
  exact hfound.unique hlast

/-! ## The records behind the nodes -/

/-- The record is an object that is found under the locator at this position. -/
def Carries (position : Nat) (record : Json) (locator : String) : Prop :=
  ∃ members, record = .object members ∧ locatorOf position members = .ok locator

/-- A record is read if it is an object with a locator whose members can be read. -/
theorem rawRecord_eq_ok_iff {codec : Codec} {position : Nat} {record : Json} {raw : RawRecord} :
    rawRecord codec position record = .ok raw ↔
      ∃ members, record = .object members ∧ locatorOf position members = .ok raw.locator ∧
        rawProperties codec members = .ok raw.properties := by
  cases record with
  | object members =>
    rw [rawRecord, both_eq_ok_iff]
    constructor
    · rintro ⟨locator, properties, hlocator, hproperties, rfl⟩
      exact ⟨members, rfl, hlocator, hproperties⟩
    · rintro ⟨_, hsame, hlocator, hproperties⟩
      obtain rfl := Json.object.inj hsame
      exact ⟨_, _, hlocator, hproperties, rfl⟩
  | _ => exact ⟨nofun, fun ⟨_, hsame, _⟩ => nomatch hsame⟩

theorem carries_of_rawRecord {codec : Codec} {position : Nat} {record : Json} {raw : RawRecord}
    (h : rawRecord codec position record = .ok raw) : Carries position record raw.locator := by
  obtain ⟨members, rfl, hlocator, -⟩ := rawRecord_eq_ok_iff.1 h
  exact ⟨members, rfl, hlocator⟩

/-- The records of a response are read one by one, each at its position. -/
theorem getElem?_of_rawRecords {codec : Codec} {start : Nat} {records : List Json}
    {raws : List RawRecord} (h : rawRecords codec start records = .ok raws) :
    raws.length = records.length ∧
      ∀ position record, records[position]? = some record →
        ∃ raw, raws[position]? = some raw ∧
          rawRecord codec (start + position) record = .ok raw := by
  induction records generalizing start raws with
  | nil =>
    obtain rfl := Except.ok.inj h
    exact ⟨rfl, nofun⟩
  | cons first rest ih =>
    rw [rawRecords, both_eq_ok_iff] at h
    obtain ⟨raw, others, hfirst, hrest, rfl⟩ := h
    obtain ⟨hlength, hread⟩ := ih hrest
    refine ⟨congrArg (· + 1) hlength, fun position record hrecord => ?_⟩
    cases position with
    | zero =>
      obtain rfl := Option.some.inj hrecord
      exact ⟨raw, rfl, hfirst⟩
    | succ position =>
      obtain ⟨other, hother, hread⟩ := hread position record hrecord
      refine ⟨other, hother, ?_⟩
      rwa [Nat.add_assoc, Nat.add_comm 1 position] at hread

/-- What was read at a position was read from the record there. -/
theorem exists_record_of_getElem? {codec : Codec} {start : Nat} {records : List Json}
    {raws : List RawRecord} (h : rawRecords codec start records = .ok raws) {position : Nat}
    {raw : RawRecord} (hraw : raws[position]? = some raw) :
    ∃ record, records[position]? = some record ∧
      rawRecord codec (start + position) record = .ok raw := by
  obtain ⟨hlength, hread⟩ := getElem?_of_rawRecords h
  have hlt : position < records.length := hlength ▸ (List.getElem?_eq_some_iff.1 hraw).1
  have hrecord := List.getElem?_eq_getElem hlt
  obtain ⟨other, hother, hfrom⟩ := hread position _ hrecord
  obtain rfl := Option.some.inj (hraw.symm.trans hother)
  exact ⟨_, hrecord, hfrom⟩

/-- Every record that was read was read from a record of the response. -/
theorem exists_of_mem_rawRecords {codec : Codec} {start : Nat} {records : List Json}
    {raws : List RawRecord} (h : rawRecords codec start records = .ok raws) {raw : RawRecord}
    (hraw : raw ∈ raws) :
    ∃ position, ∃ record ∈ records, rawRecord codec position record = .ok raw := by
  obtain ⟨position, hposition⟩ := List.mem_iff_getElem?.1 hraw
  obtain ⟨record, hrecord, hread⟩ := exists_record_of_getElem? h hposition
  exact ⟨_, record, List.mem_of_getElem? hrecord, hread⟩

/-- What is decoded are the records of the response, read one by one and then linked. -/
theorem ofJson_eq_ok_iff {codec : Codec} {response : Json} {unlink : Bool} {g : ResultGraph} :
    ofJson codec response unlink = .ok g ↔
      ∃ records raws, recordsOf response = .ok records ∧ rawRecords codec 0 records = .ok raws ∧
        g = ofRecords raws unlink := by
  constructor
  · intro h
    obtain ⟨records, hrecords, h⟩ := bind_eq_ok_iff.1 h
    obtain ⟨raws, hraws, h⟩ := bind_eq_ok_iff.1 h
    exact ⟨records, raws, hrecords, hraws, (Except.ok.inj h).symm⟩
  · rintro ⟨records, raws, hrecords, hraws, rfl⟩
    exact bind_eq_ok_iff.2 ⟨records, hrecords, bind_eq_ok_iff.2 ⟨raws, hraws, rfl⟩⟩

/-! ## Handles -/

/-- **No position is dangling or stale.** The graph has a node for each record of the response,
under the locator that the record carries. Every position that it hands out is that of a node, and
of the last one with its locator. The list of nodes goes up strictly, and without unlinking it has
every locator exactly once. -/
theorem handles_current {codec : Codec} {response : Json} {unlink : Bool} {g : ResultGraph}
    (h : ofJson codec response unlink = .ok g) :
    (∃ records, recordsOf response = .ok records ∧ g.locators.length = records.length ∧
      ∀ position record, records[position]? = some record →
        ∃ locator, g.locators[position]? = some locator ∧ Carries position record locator) ∧
    (∀ position, g.Issues position →
      ∃ node, g.get? position = some node ∧ LastAt g.locators node.locator position) ∧
    g.topLevel.Pairwise (· < ·) ∧
    (unlink = false → ∀ locator ∈ g.locators,
      ∃! position, position ∈ g.topLevel ∧ g.locators[position]? = some locator) := by
  obtain ⟨records, raws, hrecords, hraws, rfl⟩ := ofJson_eq_ok_iff.1 h
  obtain ⟨hlength, hread⟩ := getElem?_of_rawRecords hraws
  rw [locators_ofRecords]
  refine ⟨⟨records, hrecords, ?_, fun position record hrecord => ?_⟩, fun position hissued => ?_,
    pairwise_topLevel raws unlink, ?_⟩
  · rw [List.length_map, hlength]
  · -- records are counted from zero
    obtain ⟨raw, hraw, hread⟩ := hread position record hrecord
    rw [Nat.zero_add] at hread
    refine ⟨raw.locator, ?_, carries_of_rawRecord hread⟩
    rw [List.getElem?_map, hraw]
    rfl
  · obtain ⟨locator, hlast⟩ := exists_lastAt_of_issues hissued
    have hnode := hlast.1
    rw [← locators_ofRecords raws unlink, locators, List.getElem?_map,
      Option.map_eq_some_iff] at hnode
    obtain ⟨node, hnode, rfl⟩ := hnode
    exact ⟨node, hnode, hlast⟩
  · rintro rfl locator hlocator
    exact existsUnique_topLevel hlocator

/-- The first record is superseded by the last, and the one in between has no locator of its own
but is linked to all the same. -/
def repeatedRecords : Json :=
  .array [
    .object [("@id", .string "urn:a"), ("knows", .object [("@id", .string "urn:c")])],
    .object [("knows", .array [.string "x",
      .array [.object [("@id", .string "urn:a")], .object [("@id", .string "_:record1")]]])],
    .object [("@id", .string "urn:a"), ("knows", .object [("@id", .string "urn:a")])]]

theorem handles_current_repeated :
    ∃ g, ofJson .empty repeatedRecords false = .ok g ∧ g.topLevel = [1, 2] ∧
      g.nodes.flatMap (·.links) = [2, 1, 2] ∧
      ∀ position, g.Issues position →
        ∃ node, g.get? position = some node ∧ LastAt g.locators node.locator position := by
  obtain ⟨g, hg, hlisted, hlinks⟩ : ∃ g, ofJson .empty repeatedRecords false = .ok g ∧
      g.topLevel = [1, 2] ∧ g.nodes.flatMap (·.links) = [2, 1, 2] := by
    exact ⟨_, rfl, rfl, rfl⟩
  exact ⟨g, hg, hlisted, hlinks, (handles_current hg).2.1⟩

end ResultGraph

end LinkedData
