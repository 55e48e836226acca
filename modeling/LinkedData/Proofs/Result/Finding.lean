import LinkedData.Proofs.Result.Links
import LinkedData.Proofs.Result.Order
import Mathlib.Order.Lattice.Nat

/-!
# Finding a node by its name

A name belongs to the nodes whose records carry its locator, and if these are several, two ways to
look for one of them part: `find?` goes through the nodes from the front, whereas a link leads to
the last of them. What is found is the least of the positions at which the locator stands, what is
linked the greatest (`find?_least`). So both agree exactly if at most one record carries it.
-/

namespace LinkedData

namespace ResultGraph

/-- The positions of the records that carry the locator as their identifier. -/
def positionsOf (records : List Json) (locator : String) : Set Nat :=
  {position | ∃ record, records[position]? = some record ∧ textId? record = some locator}

/-- The first element with a property is at the least of the positions of such elements. -/
theorem findIdx?_eq_some_iff_isLeast {α : Type} {p : α → Bool} {xs : List α} {i : Nat} :
    xs.findIdx? p = some i ↔ IsLeast {j | ∃ x, xs[j]? = some x ∧ p x = true} i := by
  rw [List.findIdx?_eq_some_iff_getElem]
  constructor
  · rintro ⟨hlt, hi, hbefore⟩
    refine ⟨⟨xs[i], List.getElem?_eq_getElem hlt, hi⟩, ?_⟩
    rintro j ⟨x, hx, hj⟩
    obtain ⟨hjlt, rfl⟩ := List.getElem?_eq_some_iff.1 hx
    exact Nat.le_of_not_lt fun hlt => hbefore j hlt hj
  · rintro ⟨⟨x, hx, hi⟩, hleast⟩
    obtain ⟨hlt, rfl⟩ := List.getElem?_eq_some_iff.1 hx
    refine ⟨hlt, hi, fun j hji hj => ?_⟩
    exact Nat.not_le_of_lt hji (hleast ⟨_, List.getElem?_eq_getElem _, hj⟩)

/-- The least element is the greatest one exactly if there are no two. -/
theorem isLeast_iff_isGreatest_iff {positions : Set Nat} :
    (∀ p, IsLeast positions p ↔ IsGreatest positions p) ↔ positions.Subsingleton := by
  constructor
  · intro hsame a ha b hb
    have hleast : IsLeast positions (sInf positions) := isLeast_csInf ⟨a, ha⟩
    have hgreatest := (hsame _).1 hleast
    have heq : ∀ c ∈ positions, c = sInf positions :=
      fun c hc => Nat.le_antisymm (hgreatest.2 hc) (hleast.2 hc)
    rw [heq a ha, heq b hb]
  · intro hone p
    refine and_congr_right fun hp => iff_of_true ?_ ?_
    · exact fun q hq => Nat.le_of_eq (hone hp hq)
    · exact fun q hq => Nat.le_of_eq (hone hq hp)

/-! ## Names and locators -/

/-- A node has the name that its locator consists of. -/
theorem nameOf?_eq_some_iff {locator : String} {r : Reference} :
    nameOf? locator = some r ↔ locator = r.locator := by
  constructor
  · intro h
    obtain ⟨name, hafter, hname⟩ := Option.bind_eq_some_iff.1 h
    rw [Text.after?_eq_some_iff.1 hafter, Reference.locator, Reference.name_of_ofName? hname]
  · rintro rfl
    exact nameOf?_locator r

/-- A locator that is made for a record names nothing. -/
theorem madeLocator_ne_locator (position : Nat) (r : Reference) :
    madeLocator position ≠ r.locator := by
  have hmark : Text.Apart "_:record" Vocabulary.ids := by decide +kernel
  exact hmark.append_ne_append _ _

/-- A record carries its locator as its identifier, or it has none and its locator was made. -/
theorem carries_iff {position : Nat} {record : Json} {locator : String} :
    Carries position record locator ↔ textId? record = some locator ∨
      ∃ members, record = .object members ∧ Fields.get? Vocabulary.idKey members = none ∧
        locator = madeLocator position := by
  constructor
  · rintro ⟨members, rfl, hlocator⟩
    rw [locatorOf.eq_def] at hlocator
    rw [textId?, Json.member?]
    split at hlocator
    · rename_i text hid
      rw [hid]
      exact .inl (congrArg some (Except.ok.inj hlocator))
    · cases hlocator
    · rename_i hnone
      exact .inr ⟨members, rfl, hnone, (Except.ok.inj hlocator).symm⟩
  · rintro (hid | ⟨members, rfl, hnone, rfl⟩)
    · obtain ⟨members, rfl, hlocator⟩ := locatorOf_of_textId hid
      exact ⟨members, rfl, hlocator position⟩
    · exact ⟨members, rfl, by rw [locatorOf, hnone]⟩

/-- The locator of a name is one that the record carries. -/
theorem carries_locator_iff {position : Nat} {record : Json} {r : Reference} :
    Carries position record r.locator ↔ textId? record = some r.locator := by
  rw [carries_iff, or_iff_left]
  rintro ⟨-, -, -, hmade⟩
  exact madeLocator_ne_locator position r hmade.symm

/-- A record is found under one locator only. -/
theorem Carries.eq_iff {position : Nat} {record : Json} {locator locator' : String}
    (h : Carries position record locator) :
    locator = locator' ↔ Carries position record locator' := by
  constructor
  · rintro rfl
    exact h
  · rintro ⟨members, rfl, hlocator'⟩
    obtain ⟨members', hsame, hlocator⟩ := h
    obtain rfl := Json.object.inj hsame
    exact Except.ok.inj (hlocator.symm.trans hlocator')

/-- A locator becomes a link to where it leads. -/
theorem linked_locator_iff {target : String → Option Nat} {text : String} {position : Nat} :
    linked target (.locator text) = .link position ↔ target text = some position := by
  rw [linked]
  rcases target text with _ | found
  · simp
  · rw [Decoded.link.injEq, Option.some.injEq]

section

variable {codec : Codec} {records : List Json} {raws : List RawRecord}

/-- A locator stands where records are found under it. -/
theorem getElem?_locators_iff (h : rawRecords codec 0 records = .ok raws) {locator : String}
    {position : Nat} :
    (raws.map (·.locator))[position]? = some locator ↔
      ∃ record, records[position]? = some record ∧ Carries position record locator := by
  rw [List.getElem?_map, Option.map_eq_some_iff]
  constructor
  · rintro ⟨raw, hraw, rfl⟩
    obtain ⟨record, hrecord, hread⟩ := exists_record_of_getElem? h hraw
    rw [Nat.zero_add] at hread
    exact ⟨record, hrecord, carries_of_rawRecord hread⟩
  · rintro ⟨record, hrecord, hcarries⟩
    obtain ⟨raw, hraw, hread⟩ := (getElem?_of_rawRecords h).2 position record hrecord
    rw [Nat.zero_add] at hread
    exact ⟨raw, hraw, (carries_of_rawRecord hread).eq_iff.2 hcarries⟩

/-- The locator of a name stands where records carry it. -/
theorem getElem?_locator_iff (h : rawRecords codec 0 records = .ok raws) {r : Reference}
    {position : Nat} :
    (raws.map (·.locator))[position]? = some r.locator ↔
      position ∈ positionsOf records r.locator := by
  rw [getElem?_locators_iff h]
  simp only [carries_locator_iff]
  rfl

/-- A link to the locator of a name leads to the last record that carries it. -/
theorem lastAt_iff_isGreatest (h : rawRecords codec 0 records = .ok raws) {r : Reference}
    {position : Nat} :
    LastAt (raws.map (·.locator)) r.locator position ↔
      IsGreatest (positionsOf records r.locator) position := by
  rw [LastAt, getElem?_locator_iff h]
  refine and_congr_right fun _ => ⟨fun hlast later hlater => ?_, fun hupper later hlt hlater => ?_⟩
  · exact Nat.le_of_not_lt fun hlt => hlast later hlt ((getElem?_locator_iff h).2 hlater)
  · exact Nat.not_le_of_lt hlt (hupper ((getElem?_locator_iff h).1 hlater))

/-- A node has the name exactly if its record carries the locator of it. -/
theorem exists_named_iff (h : rawRecords codec 0 records = .ok raws) (unlink : Bool) {r : Reference}
    {position : Nat} :
    (∃ node, (ofRecords raws unlink).nodes[position]? = some node ∧ (node.id == some r) = true) ↔
      position ∈ positionsOf records r.locator := by
  rw [← getElem?_locator_iff h, ← locators_ofRecords raws unlink, locators, List.getElem?_map,
    Option.map_eq_some_iff]
  refine exists_congr fun node => and_congr_right fun hnode => ?_
  obtain ⟨raw, -, rfl⟩ := List.mem_map.1 (List.mem_of_getElem? hnode)
  rw [beq_iff_eq]
  exact nameOf?_eq_some_iff

/-- The first node with a name is that of the first record that carries its locator. -/
theorem find?_ofRecords_iff (h : rawRecords codec 0 records = .ok raws) (unlink : Bool)
    {r : Reference} {position : Nat} :
    (ofRecords raws unlink).find? r = some position ↔
      IsLeast (positionsOf records r.locator) position := by
  rw [find?, findIdx?_eq_some_iff_isLeast]
  simp only [exists_named_iff h unlink]
  rfl

end

/-! ## What is found and what is linked -/

/-- **Found is the first, linked the last.** For every name, the records that carry its locator are
the nodes that have it. If there are any, the first of them is found, and a link to the locator
leads to the last of them; otherwise nothing is found, and nothing linked. So the node that is found
is always the one that links lead to exactly if at most one record carries the locator. -/
theorem find?_least {codec : Codec} {response : Json} {unlink : Bool} {g : ResultGraph}
    (h : ofJson codec response unlink = .ok g) (r : Reference) :
    ∃ records, recordsOf response = .ok records ∧
      (∀ position, g.find? r = some position ↔
        IsLeast (positionsOf records r.locator) position) ∧
      (∀ position, linked (target? g.locators) (.locator r.locator) = .link position ↔
        IsGreatest (positionsOf records r.locator) position) ∧
      (g.find? r = none ↔ positionsOf records r.locator = ∅) ∧
      ((∀ position, g.find? r = some position ↔
          linked (target? g.locators) (.locator r.locator) = .link position) ↔
        (positionsOf records r.locator).Subsingleton) := by
  obtain ⟨records, raws, hrecords, hraws, rfl⟩ := ofJson_eq_ok_iff.1 h
  have hfind : ∀ position, (ofRecords raws unlink).find? r = some position ↔
      IsLeast (positionsOf records r.locator) position :=
    fun _ => find?_ofRecords_iff hraws unlink
  have hlink : ∀ position, linked (target? (ofRecords raws unlink).locators) (.locator r.locator) =
      .link position ↔ IsGreatest (positionsOf records r.locator) position := by
    intro position
    rw [linked_locator_iff, target?_eq_some_iff, locators_ofRecords, lastAt_iff_isGreatest hraws]
  refine ⟨records, hrecords, hfind, hlink, ?_, ?_⟩
  · rw [Option.eq_none_iff_forall_ne_some, ← Set.not_nonempty_iff_eq_empty]
    simp only [ne_eq, hfind]
    exact ⟨fun hnone hsome => hnone _ (isLeast_csInf hsome), fun hempty p hp => hempty ⟨p, hp.1⟩⟩
  · simp only [hfind, hlink]
    exact isLeast_iff_isGreatest_iff

/-- The first record is renewed by the last one, and the one in between has a link to them. -/
def renewed : Json :=
  .array [
    .object [("@id", .string "http://grel.org/ids/id/olga"), (":age", .number (.natural 36))],
    .object [("@id", .string "http://grel.org/ids/id/bob"),
      (":knows", .object [("@id", .string "http://grel.org/ids/id/olga")])],
    .object [("@id", .string "http://grel.org/ids/id/olga"), (":age", .number (.natural 37))]]

/-- The name of two records. -/
def olga : Reference :=
  ⟨"olga", by decide⟩

/-- The name of no record. -/
def eve : Reference :=
  ⟨"eve", by decide⟩

theorem find?_least_renewed :
    ∃ g records, ofJson .empty renewed false = .ok g ∧ recordsOf renewed = .ok records ∧
      g.find? olga = some 0 ∧ IsLeast (positionsOf records olga.locator) 0 ∧
      linked (target? g.locators) (.locator olga.locator) = .link 2 ∧
      IsGreatest (positionsOf records olga.locator) 2 ∧
      g.find? eve = none ∧ positionsOf records eve.locator = ∅ := by
  obtain ⟨g, hg, hfound, htarget, hmissing⟩ : ∃ g, ofJson .empty renewed false = .ok g ∧
      g.find? olga = some 0 ∧ target? g.locators olga.locator = some 2 ∧ g.find? eve = none := by
    exact ⟨_, rfl, by decide +kernel, by decide +kernel, by decide +kernel⟩
  have hlinked := linked_locator_iff.2 htarget
  obtain ⟨records, hrecords, hfind, hlink, -, -⟩ := find?_least hg olga
  obtain ⟨records', hrecords', -, -, hnone, -⟩ := find?_least hg eve
  obtain rfl := Except.ok.inj (hrecords.symm.trans hrecords')
  exact ⟨g, records, hg, hrecords, hfound, (hfind 0).1 hfound, hlinked, (hlink 2).1 hlinked,
    hmissing, hnone.1 hmissing⟩

/-- **What is found can be superseded.** The first of two records is found, although the graph does
not hand it out otherwise: it is not listed, and all links lead to the second. -/
theorem found_superseded :
    ∃ g, ofJson .empty renewed false = .ok g ∧ g.find? olga = some 0 ∧
      linked (target? g.locators) (.locator olga.locator) = .link 2 ∧
      g.topLevel = [1, 2] ∧ g.nodes.flatMap (·.links) = [2] := by
  refine ⟨_, rfl, by decide +kernel, linked_locator_iff.2 ?_, by decide +kernel, by decide +kernel⟩
  decide +kernel

end ResultGraph

end LinkedData
