import LinkedData.Proofs.Result.Description
import LinkedData.Proofs.Result.Reported
import LinkedData.Proofs.Result.Unlink

/-!
# Records in another order

Positions depend on the order in which records come, and nothing else that can be seen does. If the
records have locators of their own, all different, then the same records in another order give a
graph with the same nodes at other positions. A locator leads to the same record in both, so the
same nodes are spliced, and a node is cut below the same nodes: expanded from related positions on
related paths, both graphs give the same value (`Reordered.valueOn_eq`). So what is listed changes
only its order (`order_irrelevant`).
-/

namespace LinkedData

open Literal

namespace ResultGraph

/-! ## Properties without positions -/

section

variable {target target' : String → Option Nat} {link link' : Nat → Value}

/-- What a locator stands for in a value. -/
def pointed (target : String → Option Nat) (link : Nat → Value) (text : String) : Value :=
  match target text with
  | some position => link position
  | none => decodeLocator text

mutual

/-- The value of a property depends on positions only through what locators stand for. -/
theorem toValue_linked_congr (h : ∀ text, pointed target link text = pointed target' link' text) :
    ∀ property : RawProperty,
      (linked target property).toValue link = (linked target' property).toValue link'
  | .value v => by
    rw [linked, linked, Decoded.toValue, Decoded.toValue]
  | .locator text => by
    have hpointed : ∀ (target : String → Option Nat) (link : Nat → Value),
        (linked target (.locator text)).toValue link = pointed target link text := by
      intro target link
      rw [linked, pointed]
      rcases target text with _ | position <;> rfl
    rw [hpointed, hpointed, h]
  | .list items => by
    rw [linked, linked, Decoded.toValue, Decoded.toValue, toValues_linkedItems_congr h items]

theorem toValues_linkedItems_congr
    (h : ∀ text, pointed target link text = pointed target' link' text) :
    ∀ items : List RawProperty,
      Decoded.toValues link (linkedItems target items) =
        Decoded.toValues link' (linkedItems target' items)
  | [] => by
    rw [linkedItems, linkedItems, Decoded.toValues, Decoded.toValues]
  | item :: rest => by
    rw [linkedItems, linkedItems, Decoded.toValues, Decoded.toValues,
      toValue_linked_congr h item, toValues_linkedItems_congr h rest]

end

theorem expand_nodeOf_congr (h : ∀ text, pointed target link text = pointed target' link' text)
    (record : RawRecord) :
    (nodeOf target record).expand link = (nodeOf target' record).expand link' := by
  have hproperties : (nodeOf target record).properties.map
        (fun property => (property.1, property.2.toValue link)) =
      (nodeOf target' record).properties.map
        fun property => (property.1, property.2.toValue link') := by
    rw [nodeOf, nodeOf, Fields.map_ofList, Fields.map_ofList, linkedProperties, linkedProperties,
      List.map_map, List.map_map]
    refine congrArg Fields.ofList (List.map_congr_left fun property _ => ?_)
    exact congrArg (Prod.mk property.1) (toValue_linked_congr h property.2)
  rw [DecodedNode.expand_eq_foldl, DecodedNode.expand_eq_foldl, hproperties]
  rfl

end

/-! ## The same records at other positions -/

/-- The same records, with locators that are all different, in another order. -/
structure Reordered (raws raws' : List RawRecord) : Prop where
  /-- the records are the same -/
  perm : raws.Perm raws'
  /-- no locator comes twice -/
  nodup : (raws.map (·.locator)).Nodup

/-- The same record stands at both positions. -/
def SameRecord (raws raws' : List RawRecord) (i j : Nat) : Prop :=
  ∃ raw, raws[i]? = some raw ∧ raws'[j]? = some raw

theorem SameRecord.symm {raws raws' : List RawRecord} {i j : Nat}
    (h : SameRecord raws raws' i j) : SameRecord raws' raws j i := by
  obtain ⟨raw, hi, hj⟩ := h
  exact ⟨raw, hj, hi⟩

theorem lastAt_iff_of_nodup {raws : List RawRecord} (h : (raws.map (·.locator)).Nodup) {i : Nat}
    {raw : RawRecord} (hraw : raws[i]? = some raw) {text : String} :
    LastAt (raws.map (·.locator)) text i ↔ raw.locator = text := by
  have hlocator : (raws.map (·.locator))[i]? = some raw.locator := by
    rw [List.getElem?_map, hraw]
    rfl
  constructor
  · intro hlast
    exact Option.some.inj (hlocator.symm.trans hlast.1)
  · rintro rfl
    exact lastAt_of_nodup h hlocator

namespace Reordered

variable {raws raws' : List RawRecord}

theorem symm (h : Reordered raws raws') : Reordered raws' raws :=
  ⟨h.perm.symm, ((h.perm.map _).nodup_iff).1 h.nodup⟩

section

variable (h : Reordered raws raws')

include h

theorem exists_sameRecord {i : Nat} (hi : i < raws.length) : ∃ j, SameRecord raws raws' i j := by
  have hget := List.getElem?_eq_getElem hi
  obtain ⟨j, hj⟩ := List.mem_iff_getElem?.1 (h.perm.mem_iff.1 (List.mem_of_getElem? hget))
  exact ⟨j, _, hget, hj⟩

/-- Locators are all different, so no position is related to two. -/
theorem left_unique {i i' j : Nat} (hi : SameRecord raws raws' i j)
    (hi' : SameRecord raws raws' i' j) : i = i' := by
  obtain ⟨raw, hraw, hj⟩ := hi
  obtain ⟨raw', hraw', hj'⟩ := hi'
  obtain rfl := Option.some.inj (hj.symm.trans hj')
  exact ((lastAt_iff_of_nodup h.nodup hraw).2 rfl).unique
    ((lastAt_iff_of_nodup h.nodup hraw').2 rfl)

theorem eq_iff {i i' j j' : Nat} (hi : SameRecord raws raws' i j)
    (hi' : SameRecord raws raws' i' j') : i = i' ↔ j = j' := by
  constructor
  · rintro rfl
    exact h.symm.left_unique hi.symm hi'.symm
  · rintro rfl
    exact h.left_unique hi hi'

theorem mem_path_iff {path path' : List Nat}
    (hpath : List.Forall₂ (SameRecord raws raws') path path')
    {i j : Nat} (hij : SameRecord raws raws' i j) : i ∈ path ↔ j ∈ path' := by
  induction hpath with
  | nil => exact ⟨nofun, nofun⟩
  | cons hsame _ ih => rw [List.mem_cons, List.mem_cons, ih, h.eq_iff hij hsame]

/-- A locator leads to the same record, or nowhere. -/
theorem target?_cases (text : String) :
    (target? (raws.map (·.locator)) text = none ∧ target? (raws'.map (·.locator)) text = none) ∨
      ∃ i j, target? (raws.map (·.locator)) text = some i ∧
        target? (raws'.map (·.locator)) text = some j ∧ SameRecord raws raws' i j := by
  rcases htarget : target? (raws.map (·.locator)) text with _ | i
  · have hnone := (lastPosition?_eq_none_iff 0).1 htarget
    rw [(h.perm.map fun raw => raw.locator).mem_iff] at hnone
    exact .inl ⟨htarget, (lastPosition?_eq_none_iff 0).2 hnone⟩
  · have hlast := target?_eq_some_iff.1 htarget
    have hlt := hlast.lt
    rw [List.length_map] at hlt
    obtain ⟨j, raw, hi, hj⟩ := h.exists_sameRecord hlt
    refine .inr ⟨i, j, htarget, ?_, raw, hi, hj⟩
    rw [target?_eq_some_iff, lastAt_iff_of_nodup h.symm.nodup hj]
    exact (lastAt_iff_of_nodup h.nodup hi).1 hlast

theorem pointed_eq {link link' : Nat → Value}
    (hlink : ∀ i j, SameRecord raws raws' i j → link i = link' j) (text : String) :
    pointed (target? (raws.map (·.locator))) link text =
      pointed (target? (raws'.map (·.locator))) link' text := by
  rcases h.target?_cases text with ⟨hi, hj⟩ | ⟨i, j, hi, hj, hsame⟩
  · rw [pointed, pointed, hi, hj]
  · rw [pointed, pointed, hi, hj]
    exact hlink i j hsame

/-- Below related paths, related positions have the same value. -/
theorem valueOn_eq (unlink : Bool) {fuel : Nat} {path path' : List Nat}
    (hpath : List.Forall₂ (SameRecord raws raws') path path') {i j : Nat}
    (hij : SameRecord raws raws' i j) :
    (ofRecords raws unlink).valueOn fuel path i =
      (ofRecords raws' unlink).valueOn fuel path' j := by
  -- the positions differ, but not which of them are on the paths
  induction fuel generalizing path path' i j with
  | zero => rfl
  | succ fuel ih =>
    have hcontains : path.contains i = path'.contains j := by
      rw [List.contains_eq_mem, List.contains_eq_mem]
      exact decide_eq_decide.2 (h.mem_path_iff hpath hij)
    obtain ⟨raw, hi, hj⟩ := id hij
    rw [valueOn, valueOn, get?_ofRecords, get?_ofRecords, hi, hj, hcontains]
    dsimp only [Option.map_some]
    split
    · rfl
    · exact expand_nodeOf_congr (h.pointed_eq fun i' j' hsame => ih (.cons hij hpath) hsame) raw

theorem toValue_eq (unlink : Bool) {i j : Nat} (hij : SameRecord raws raws' i j) :
    (ofRecords raws unlink).toValue i = (ofRecords raws' unlink).toValue j := by
  have hlength : (ofRecords raws' unlink).nodes.length = (ofRecords raws unlink).nodes.length := by
    rw [ofRecords, ofRecords, List.length_map, List.length_map, h.perm.length_eq]
  rw [toValue, toValue, hlength]
  exact h.valueOn_eq unlink .nil hij

/-- A record is read with the same links. -/
theorem readLink {i i' j j' : Nat} (hi : SameRecord raws raws' i j)
    (hi' : SameRecord raws raws' i' j') (hlink : ReadLink raws i i') : ReadLink raws' j j' := by
  obtain ⟨raw, text, hraw, htext, hlast⟩ := hlink
  obtain ⟨_, hi, hj⟩ := hi
  obtain rfl := Option.some.inj (hraw.symm.trans hi)
  obtain ⟨raw', hi', hj'⟩ := hi'
  refine ⟨raw, text, hj, htext, ?_⟩
  rw [lastAt_iff_of_nodup h.symm.nodup hj']
  exact (lastAt_iff_of_nodup h.nodup hi').1 hlast

theorem topLevel_of_topLevel (unlink : Bool) {i j : Nat} (hij : SameRecord raws raws' i j)
    (hi : i ∈ (ofRecords raws unlink).topLevel) : j ∈ (ofRecords raws' unlink).topLevel := by
  have hlisted : j ∈ (ofRecords raws' false).topLevel := by
    obtain ⟨raw, -, hj⟩ := hij
    exact (mem_topLevel_of_nodup h.symm.nodup).2 (List.getElem?_eq_some_iff.1 hj).1
  cases unlink with
  | false => exact hlisted
  | true =>
    -- a record that links to the one would link to the other, too
    refine mem_topLevel_unlink.2 ⟨hlisted, fun k hread => ?_⟩
    have hk : k < raws'.length := by
      obtain ⟨raw, -, hk, -⟩ := hread
      exact (List.getElem?_eq_some_iff.1 hk).1
    obtain ⟨k', hsame⟩ := h.symm.exists_sameRecord hk
    have hread' := h.symm.readLink hsame hij.symm hread
    exact (h.eq_iff hsame.symm hij).1 ((mem_topLevel_unlink.1 hi).2 k' hread')

end

end Reordered

/-! ## What is listed under a locator -/

/-- The value of the listed node with this locator. -/
def shown? (g : ResultGraph) (locator : String) : Option Value :=
  (g.topLevel.find? fun position => g.locators[position]? == some locator).map g.toValue

theorem shown?_eq_none {g : ResultGraph} {locator : String} (h : locator ∉ g.locators) :
    g.shown? locator = none := by
  rw [shown?, Option.map_eq_none_iff, List.find?_eq_none]
  intro position _ hlocator
  exact h (List.mem_of_getElem? (eq_of_beq hlocator))

theorem shown?_locator {raws : List RawRecord} (h : (raws.map (·.locator)).Nodup) (unlink : Bool)
    {i : Nat} {raw : RawRecord} (hraw : raws[i]? = some raw) :
    (ofRecords raws unlink).shown? raw.locator =
      if i ∈ (ofRecords raws unlink).topLevel then some ((ofRecords raws unlink).toValue i)
      else none := by
  have hthis : ∀ position, ((raws.map (·.locator))[position]? == some raw.locator) = true ↔
      position = i := by
    intro position
    rw [beq_iff_eq]
    constructor
    · intro hposition
      exact (lastAt_of_nodup h hposition).unique ((lastAt_iff_of_nodup h hraw).2 rfl)
    · rintro rfl
      rw [List.getElem?_map, hraw]
      rfl
  rw [shown?, locators_ofRecords]
  rcases hfound : (ofRecords raws unlink).topLevel.find? fun position =>
      (raws.map (·.locator))[position]? == some raw.locator with _ | position
  · rw [if_neg, Option.map_none]
    exact fun hi => List.find?_eq_none.1 hfound i hi ((hthis i).2 rfl)
  · have hposition := List.find?_some hfound
    obtain rfl := (hthis position).1 hposition
    rw [if_pos (List.mem_of_find?_eq_some hfound), Option.map_some]

/-- To go through some positions of a list in order is to go through the list. -/
theorem map_filter_range {α β : Type} {items : List α} {keep : Nat → Bool} {f : Nat → β}
    {shown : α → Option β}
    (h : ∀ i item, items[i]? = some item → shown item = if keep i then some (f i) else none) :
    ((List.range items.length).filter keep).map f = items.filterMap shown := by
  -- from the end, where positions are added
  induction items using List.reverseRecOn with
  | nil => rfl
  | append_singleton items last ih =>
    have hinit : ∀ i item, items[i]? = some item →
        shown item = if keep i then some (f i) else none := by
      intro i item hitem
      refine h i item ?_
      rw [List.getElem?_append_left (List.getElem?_eq_some_iff.1 hitem).1, hitem]
    have hlast : shown last = if keep items.length then some (f items.length) else none :=
      h _ _ List.getElem?_concat_length
    rw [List.length_append, List.length_singleton, List.range_succ, List.filter_append,
      List.map_append, ih hinit, List.filterMap_append]
    congr 1
    rw [List.filterMap_cons, hlast, List.filter_cons]
    split <;> rfl

/-- The values of a graph are those listed under its locators, in order. -/
theorem toValues_eq_filterMap {raws : List RawRecord} (h : (raws.map (·.locator)).Nodup)
    (unlink : Bool) :
    (ofRecords raws unlink).toValues =
      (raws.map (·.locator)).filterMap (ofRecords raws unlink).shown? := by
  refine map_filter_range fun i locator hlocator => ?_
  have hlt := (List.getElem?_eq_some_iff.1 hlocator).1
  rw [List.getElem?_map, Option.map_eq_some_iff] at hlocator
  obtain ⟨raw, hraw, rfl⟩ := hlocator
  rw [shown?_locator h unlink hraw]
  exact if_congr (List.mem_filter.trans (and_iff_right (List.mem_range.2 hlt))) rfl rfl

namespace Reordered

variable {raws raws' : List RawRecord}

/-- Under every locator the same is listed. -/
theorem shown?_eq (h : Reordered raws raws') (unlink : Bool) (locator : String) :
    (ofRecords raws unlink).shown? locator = (ofRecords raws' unlink).shown? locator := by
  by_cases hmem : locator ∈ raws.map (·.locator)
  · obtain ⟨i, hi⟩ := List.mem_iff_getElem?.1 hmem
    rw [List.getElem?_map, Option.map_eq_some_iff] at hi
    obtain ⟨raw, hraw, rfl⟩ := hi
    obtain ⟨j, hsame⟩ := h.exists_sameRecord (List.getElem?_eq_some_iff.1 hraw).1
    have hraw' : raws'[j]? = some raw := by
      obtain ⟨_, hi, hj⟩ := hsame
      rw [hj, ← hi, hraw]
    have hlisted : i ∈ (ofRecords raws unlink).topLevel ↔ j ∈ (ofRecords raws' unlink).topLevel :=
      ⟨h.topLevel_of_topLevel unlink hsame, h.symm.topLevel_of_topLevel unlink hsame.symm⟩
    rw [shown?_locator h.nodup unlink hraw, shown?_locator h.symm.nodup unlink hraw',
      h.toValue_eq unlink hsame]
    simp only [hlisted]
  · have hmem' := hmem
    rw [(h.perm.map fun raw => raw.locator).mem_iff] at hmem'
    rw [shown?_eq_none, shown?_eq_none]
    · rwa [locators_ofRecords]
    · rwa [locators_ofRecords]

end Reordered

/-! ## Reading in another order -/

/-- The identifier of a record, if it is a text. -/
def textId? (record : Json) : Option String :=
  (record.member? Vocabulary.idKey).bind Json.string?

theorem locatorOf_of_textId {record : Json} {locator : String}
    (h : textId? record = some locator) :
    ∃ members, record = .object members ∧ ∀ position, locatorOf position members = .ok locator := by
  obtain ⟨id, hid, hlocator⟩ := Option.bind_eq_some_iff.1 h
  cases record with
  | object members =>
    cases id with
    | string text =>
      obtain rfl := Option.some.inj hlocator
      refine ⟨members, rfl, fun position => ?_⟩
      rw [Json.member?] at hid
      rw [locatorOf, hid]
    | _ => cases hlocator
  | _ => cases hid

section

variable {codec : Codec}

/-- A record with an identifier is read as the same record at every position. -/
theorem rawRecord_of_textId {record : Json} {locator : String}
    (h : textId? record = some locator) (position : Nat) :
    rawRecord codec position record = rawRecord codec 0 record := by
  obtain ⟨members, rfl, hlocator⟩ := locatorOf_of_textId h
  rw [rawRecord, rawRecord, hlocator, hlocator]

theorem locator_of_textId {record : Json} {raw : RawRecord} (hnamed : (textId? record).isSome)
    (h : rawRecord codec 0 record = .ok raw) : textId? record = some raw.locator := by
  obtain ⟨locator, hid⟩ := Option.isSome_iff_exists.1 hnamed
  obtain ⟨members, rfl, hlocator⟩ := locatorOf_of_textId hid
  obtain ⟨members', hsame, hcarried⟩ := carries_of_rawRecord h
  obtain rfl := Json.object.inj hsame
  rw [hid, Except.ok.inj ((hlocator 0).symm.trans hcarried)]

theorem rawRecords_eq_ok_iff {records : List Json}
    (hnamed : ∀ record ∈ records, (textId? record).isSome) {start : Nat} {raws : List RawRecord} :
    rawRecords codec start records = .ok raws ↔
      records.map (rawRecord codec 0) = raws.map .ok := by
  induction records generalizing start raws with
  | nil =>
    rw [rawRecords, List.map_nil, Except.ok.injEq, eq_comm, eq_comm (a := []), List.map_eq_nil_iff]
  | cons first rest ih =>
    have hrest : ∀ {others}, rawRecords codec (start + 1) rest = .ok others ↔
        rest.map (rawRecord codec 0) = others.map .ok :=
      ih fun record hrecord => hnamed record (List.mem_cons_of_mem _ hrecord)
    obtain ⟨locator, hid⟩ := Option.isSome_iff_exists.1 (hnamed first List.mem_cons_self)
    rw [rawRecords, rawRecord_of_textId hid, both_eq_ok_iff, List.map_cons]
    constructor
    · rintro ⟨raw, others, hraw, hothers, rfl⟩
      rw [hraw, hrest.1 hothers, List.map_cons]
    · intro h
      obtain ⟨raw, others, rfl, hraw, hothers⟩ := List.map_eq_cons_iff.1 h.symm
      exact ⟨raw, others, hraw.symm, hrest.2 hothers.symm, rfl⟩

/-- The locators of records that are read are their identifiers. -/
theorem map_textId_of_rawRecords {records : List Json}
    (hnamed : ∀ record ∈ records, (textId? record).isSome) {raws : List RawRecord}
    (h : records.map (rawRecord codec 0) = raws.map .ok) :
    records.map textId? = (raws.map (·.locator)).map some := by
  induction records generalizing raws with
  | nil =>
    rw [List.map_nil, eq_comm, List.map_eq_nil_iff] at h
    rw [h, List.map_nil, List.map_nil, List.map_nil]
  | cons first rest ih =>
    obtain ⟨raw, others, rfl, hraw, hothers⟩ := List.map_eq_cons_iff.1 h.symm
    rw [List.map_cons, List.map_cons, List.map_cons,
      locator_of_textId (hnamed first List.mem_cons_self) hraw.symm,
      ih (fun record hrecord => hnamed record (List.mem_cons_of_mem _ hrecord)) hothers.symm]

/-- Of records that can be read, the same can be read in any order. -/
theorem exists_reordered {records records' : List Json} (hperm : records'.Perm records)
    (hnamed : ∀ record ∈ records, (textId? record).isSome)
    (hdistinct : (records.map textId?).Nodup) {raws : List RawRecord}
    (h : rawRecords codec 0 records = .ok raws) :
    ∃ raws', rawRecords codec 0 records' = .ok raws' ∧ Reordered raws raws' := by
  rw [rawRecords_eq_ok_iff hnamed] at h
  have hread : (records'.map (rawRecord codec 0)).Perm (raws.map .ok) := by
    rw [← h]
    exact hperm.map _
  obtain ⟨raws', hraws', horder⟩ := Description.exists_map_of_perm_map hread
  have hnamed' : ∀ record ∈ records', (textId? record).isSome :=
    fun record hrecord => hnamed record (hperm.mem_iff.1 hrecord)
  refine ⟨raws', (rawRecords_eq_ok_iff hnamed').2 hraws', horder.symm, ?_⟩
  rw [map_textId_of_rawRecords hnamed h] at hdistinct
  exact hdistinct.of_map _

theorem toValues_of_textId {records : List Json}
    (hnamed : ∀ record ∈ records, (textId? record).isSome)
    (hdistinct : (records.map textId?).Nodup) {raws : List RawRecord}
    (h : rawRecords codec 0 records = .ok raws) (unlink : Bool) :
    (ofRecords raws unlink).toValues =
      records.filterMap fun record => (textId? record).bind (ofRecords raws unlink).shown? := by
  have hids := map_textId_of_rawRecords hnamed ((rawRecords_eq_ok_iff hnamed).1 h)
  rw [hids] at hdistinct
  have hcomp : (records.filterMap fun record =>
      (textId? record).bind (ofRecords raws unlink).shown?) =
      (records.map textId?).filterMap fun id => id.bind (ofRecords raws unlink).shown? := by
    rw [List.filterMap_map]
    rfl
  rw [hcomp, hids, List.filterMap_map, toValues_eq_filterMap (hdistinct.of_map _)]
  rfl

theorem ofJson_array_iff {records : List Json} {unlink : Bool} {g : ResultGraph} :
    ofJson codec (.array records) unlink = .ok g ↔
      ∃ raws, rawRecords codec 0 records = .ok raws ∧ g = ofRecords raws unlink := by
  rw [ofJson_eq_ok_iff]
  constructor
  · rintro ⟨_, raws, hrecords, hraws, rfl⟩
    obtain rfl := Except.ok.inj hrecords
    exact ⟨raws, hraws, rfl⟩
  · rintro ⟨raws, hraws, rfl⟩
    exact ⟨records, raws, rfl, hraws, rfl⟩

theorem exists_ofJson_of_perm {records records' : List Json} (hperm : records'.Perm records)
    (hnamed : ∀ record ∈ records, (textId? record).isSome)
    (hdistinct : (records.map textId?).Nodup) {unlink : Bool}
    (h : ∃ g, ofJson codec (.array records) unlink = .ok g) :
    ∃ g', ofJson codec (.array records') unlink = .ok g' := by
  obtain ⟨g, hg⟩ := h
  obtain ⟨raws, hraws, rfl⟩ := ofJson_array_iff.1 hg
  obtain ⟨raws', hraws', -⟩ := exists_reordered hperm hnamed hdistinct hraws
  exact ⟨ofRecords raws' unlink, ofJson_array_iff.2 ⟨raws', hraws', rfl⟩⟩

/-- **The order of the records does not matter.** Take records that all have a text for an
identifier, no two the same. In another order they are decoded if and only if they are decoded in
this one. Then under each locator both graphs list the same value or nothing, and the values of each
graph are those of its records, in their order. -/
theorem order_irrelevant {records records' : List Json} (hperm : records'.Perm records)
    (hnamed : ∀ record ∈ records, (textId? record).isSome)
    (hdistinct : (records.map textId?).Nodup) (unlink : Bool) :
    ((∃ g', ofJson codec (.array records') unlink = .ok g') ↔
        ∃ g, ofJson codec (.array records) unlink = .ok g) ∧
      ∀ g g', ofJson codec (.array records) unlink = .ok g →
        ofJson codec (.array records') unlink = .ok g' →
          (∀ locator, g'.shown? locator = g.shown? locator) ∧
          g.toValues = records.filterMap (fun record => (textId? record).bind g.shown?) ∧
          g'.toValues = records'.filterMap (fun record => (textId? record).bind g.shown?) := by
  have hnamed' : ∀ record ∈ records', (textId? record).isSome :=
    fun record hrecord => hnamed record (hperm.mem_iff.1 hrecord)
  have hdistinct' : (records'.map textId?).Nodup := (hperm.map textId?).nodup_iff.2 hdistinct
  refine ⟨⟨exists_ofJson_of_perm hperm.symm hnamed' hdistinct',
    exists_ofJson_of_perm hperm hnamed hdistinct⟩, fun g g' hg hg' => ?_⟩
  obtain ⟨raws, hraws, rfl⟩ := ofJson_array_iff.1 hg
  obtain ⟨raws', hraws', rfl⟩ := ofJson_array_iff.1 hg'
  obtain ⟨_, hread, hreordered⟩ := exists_reordered hperm hnamed hdistinct hraws
  obtain rfl := Except.ok.inj (hread.symm.trans hraws')
  have hshown := hreordered.shown?_eq unlink
  refine ⟨fun locator => (hshown locator).symm,
    toValues_of_textId hnamed hdistinct hraws unlink, ?_⟩
  rw [toValues_of_textId hnamed' hdistinct' hraws' unlink, funext hshown]

end

/-- Two records that have links to each other, and a third one with a link to one of them. -/
def circle : List Json :=
  [.object [("@id", .string "urn:a"), (":knows", .object [("@id", .string "urn:b")])],
    .object [("@id", .string "urn:b"),
      (":knows", .array [.object [("@id", .string "urn:a")], .string "x"])],
    .object [("@id", .string "urn:c"), (":likes", .object [("@id", .string "urn:b")])]]

theorem order_irrelevant_circle :
    circle.reverse.Perm circle ∧ (∀ record ∈ circle, (textId? record).isSome) ∧
      (circle.map textId?).Nodup ∧
      ∃ g g', ofJson .empty (.array circle) true = .ok g ∧
        ofJson .empty (.array circle.reverse) true = .ok g' ∧ g.topLevel = [2] ∧
        g'.topLevel = [0] ∧ (∀ locator, g'.shown? locator = g.shown? locator) ∧
        g'.toValues = circle.reverse.filterMap (fun record => (textId? record).bind g.shown?) := by
  have hnamed : ∀ record ∈ circle, (textId? record).isSome := by decide
  have hdistinct : (circle.map textId?).Nodup := by decide
  obtain ⟨g, hg, hlisted⟩ : ∃ g, ofJson .empty (.array circle) true = .ok g ∧
      g.topLevel = [2] := by
    exact ⟨_, rfl, by decide +kernel⟩
  obtain ⟨g', hg', hlisted'⟩ : ∃ g', ofJson .empty (.array circle.reverse) true = .ok g' ∧
      g'.topLevel = [0] := by
    exact ⟨_, rfl, by decide +kernel⟩
  obtain ⟨-, hsame⟩ := order_irrelevant circle.reverse_perm hnamed hdistinct true
  obtain ⟨hshown, -, hvalues⟩ := hsame g g' hg hg'
  exact ⟨circle.reverse_perm, hnamed, hdistinct, g, g', hg, hg', hlisted, hlisted', hshown,
    hvalues⟩

end ResultGraph

end LinkedData
