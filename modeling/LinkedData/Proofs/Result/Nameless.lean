import LinkedData.Proofs.Result.Filing
import LinkedData.Proofs.Text.Digits

/-!
# Records without an identifier

A record that carries no identifier is given a locator that is made from its position. No two made
locators are the same, but nothing keeps them from being carried by other records, or from being
mentioned in their properties: then such a record is superseded, or linked to, like any other. This
happens in no other case (`apart_iff_unclaimed`).
-/

namespace LinkedData

namespace ResultGraph

/-! ## Made locators -/

theorem madeLocator_injective {m n : Nat} (h : madeLocator m = madeLocator n) : m = n :=
  Text.toString_nat_injective ((String.append_right_inj _).1 h)

/-- No record but the one it is made for is found under a made locator that it does not carry. -/
theorem Carries.madeLocator {position made : Nat} {record : Json}
    (h : Carries position record (madeLocator made)) :
    textId? record = some (ResultGraph.madeLocator made) ∨ position = made := by
  rcases carries_iff.1 h with hid | ⟨-, -, -, hmade⟩
  · exact .inl hid
  · exact .inr (madeLocator_injective hmade).symm

section

variable {codec : Codec} {records : List Json} {raws : List RawRecord} {position : Nat}
  {members : Fields Json}

/-- A record without an identifier is found under the locator that is made for it. -/
theorem getElem?_madeLocator (h : rawRecords codec 0 records = .ok raws)
    (hrecord : records[position]? = some (.object members))
    (hnone : Fields.get? Vocabulary.idKey members = none) :
    (raws.map (·.locator))[position]? = some (madeLocator position) :=
  (getElem?_locators_iff h).2
    ⟨_, hrecord, carries_iff.2 (.inr ⟨members, rfl, hnone, rfl⟩)⟩

/-- It is the last one that is, if no later record carries that locator. -/
theorem lastAt_madeLocator_iff (h : rawRecords codec 0 records = .ok raws)
    (hrecord : records[position]? = some (.object members))
    (hnone : Fields.get? Vocabulary.idKey members = none) :
    LastAt (raws.map (·.locator)) (madeLocator position) position ↔
      ∀ other ∈ positionsOf records (madeLocator position), other < position := by
  rw [LastAt, and_iff_right (getElem?_madeLocator h hrecord hnone)]
  constructor
  · rintro hlast other ⟨record, hother, hid⟩
    have hat : (raws.map (·.locator))[other]? = some (madeLocator position) :=
      (getElem?_locators_iff h).2 ⟨record, hother, carries_iff.2 (.inl hid)⟩
    refine Nat.lt_of_le_of_ne (Nat.le_of_not_lt fun hlater => hlast other hlater hat) ?_
    -- the record itself has no identifier
    rintro rfl
    obtain rfl := Option.some.inj (hrecord.symm.trans hother)
    rw [textId?, Json.member?, hnone] at hid
    cases hid
  · intro hbefore later hlater hat
    obtain ⟨record, hother, hcarries⟩ := (getElem?_locators_iff h).1 hat
    rcases hcarries.madeLocator with hid | rfl
    · exact Nat.lt_asymm hlater (hbefore later ⟨record, hother, hid⟩)
    · exact Nat.lt_irrefl _ hlater

/-- A position is listed if its own locator leads to it. -/
theorem mem_topLevel_iff_lastAt {locator : String}
    (h : (raws.map (·.locator))[position]? = some locator) :
    position ∈ (ofRecords raws false).topLevel ↔
      LastAt (raws.map (·.locator)) locator position := by
  rw [ofRecords, mem_listedPositions]
  constructor
  · rintro ⟨⟨other, hlast⟩, -⟩
    obtain rfl := Option.some.inj (h.symm.trans hlast.1)
    exact hlast
  · intro hlast
    exact ⟨⟨locator, hlast⟩, fun hunlink => absurd hunlink Bool.false_ne_true⟩

/-- Links that lead to a position were read with its own locator. -/
theorem readLink_iff_mentions {locator : String}
    (h : (raws.map (·.locator))[position]? = some locator) {i : Nat} :
    ReadLink raws i position ↔ LastAt (raws.map (·.locator)) locator position ∧
      ∃ raw, raws[i]? = some raw ∧ locator ∈ raw.mentions := by
  constructor
  · rintro ⟨raw, text, hraw, htext, hlast⟩
    obtain rfl := Option.some.inj (h.symm.trans hlast.1)
    exact ⟨hlast, raw, hraw, htext⟩
  · rintro ⟨hlast, raw, hraw, htext⟩
    exact ⟨raw, locator, hraw, htext, hlast⟩

end

/-! ## Kept apart -/

/-- **A record without an identifier is kept apart, unless its locator is claimed.** Its node has no
name, and the properties of the record. Without unlinking it is listed exactly if no later record
carries the locator that was made for it; and links lead to it from the records that mention this
locator, as long as it is listed. So it is listed with no link to it exactly if no later record
carries that locator and no record mentions it. -/
theorem apart_iff_unclaimed {codec : Codec} {response : Json} {g : ResultGraph}
    (h : ofJson codec response false = .ok g) :
    ∃ records raws, recordsOf response = .ok records ∧ rawRecords codec 0 records = .ok raws ∧
      ∀ position members, records[position]? = some (.object members) →
        Fields.get? Vocabulary.idKey members = none →
          (∃ node, g.get? position = some node ∧ node.id = none ∧
            Holds codec (target? g.locators) members node) ∧
          (position ∈ g.topLevel ↔
            ∀ other ∈ positionsOf records (madeLocator position), other < position) ∧
          (∀ i, ReadLink raws i position ↔ position ∈ g.topLevel ∧
            ∃ raw, raws[i]? = some raw ∧ madeLocator position ∈ raw.mentions) ∧
          ((position ∈ g.topLevel ∧ ∀ i, ¬ ReadLink raws i position) ↔
            (∀ other ∈ positionsOf records (madeLocator position), other < position) ∧
              ∀ raw ∈ raws, madeLocator position ∉ raw.mentions) := by
  obtain ⟨records, raws, hrecords, hraws, rfl⟩ := ofJson_eq_ok_iff.1 h
  refine ⟨records, raws, hrecords, hraws, fun position members hrecord hnone => ?_⟩
  have hmade := getElem?_madeLocator hraws hrecord hnone
  have hlisted := (mem_topLevel_iff_lastAt hmade).trans
    (lastAt_madeLocator_iff hraws hrecord hnone)
  have hlinked : ∀ i, ReadLink raws i position ↔ position ∈ (ofRecords raws false).topLevel ∧
      ∃ raw, raws[i]? = some raw ∧ madeLocator position ∈ raw.mentions := by
    intro i
    rw [mem_topLevel_iff_lastAt hmade]
    exact readLink_iff_mentions hmade
  refine ⟨?_, hlisted, hlinked, ?_⟩
  · obtain ⟨raw, hraw, hread⟩ := (getElem?_of_rawRecords hraws).2 position _ hrecord
    have hlocator : raw.locator = madeLocator position := by
      rw [List.getElem?_map, hraw] at hmade
      exact Option.some.inj hmade
    refine ⟨nodeOf (target? (raws.map (·.locator))) raw, ?_, ?_, ?_⟩
    · rw [get?_ofRecords, hraw]
      rfl
    · rw [Option.eq_none_iff_forall_ne_some]
      intro r hname
      exact madeLocator_ne_locator position r (hlocator ▸ nameOf?_eq_some_iff.1 hname)
    · rw [locators_ofRecords]
      exact holds_of_rawRecord hread _
  · rw [hlisted]
    refine and_congr_right fun hbefore => ?_
    have htop := hlisted.2 hbefore
    constructor
    · intro hunlinked raw hraw hmention
      obtain ⟨i, hraw⟩ := List.mem_iff_getElem?.1 hraw
      exact hunlinked i ((hlinked i).2 ⟨htop, raw, hraw, hmention⟩)
    · intro hunmentioned i hlink
      obtain ⟨-, raw, hraw, hmention⟩ := (hlinked i).1 hlink
      exact hunmentioned raw (List.mem_of_getElem? hraw) hmention

/-- Of the three records without an identifier the second is mentioned by the locator that is made
for it, and the third has its locator carried by the last record. -/
def claimed : Json :=
  .array [
    .object [(":age", .number (.natural 36))],
    .object [("@id", .string "urn:b"), (":knows", .object [("@id", .string "_:record2")])],
    .object [(":age", .number (.natural 37))],
    .object [(":age", .number (.natural 38))],
    .object [("@id", .string "_:record3"), (":age", .number (.natural 39))]]

theorem apart_iff_unclaimed_claimed :
    ∃ g raws, ofJson .empty claimed false = .ok g ∧
      (∃ node, g.get? 0 = some node ∧ node.id = none ∧
        node.properties.get? "age" = some (.value (.integer 36))) ∧
      (0 ∈ g.topLevel ∧ ∀ i, ¬ ReadLink raws i 0) ∧
      (2 ∈ g.topLevel ∧ ReadLink raws 1 2) ∧
      3 ∉ g.topLevel ∧ ∀ i, ¬ ReadLink raws i 3 := by
  obtain ⟨g, hg, htop⟩ : ∃ g, ofJson .empty claimed false = .ok g ∧ g.topLevel = [0, 1, 2, 4] :=
    ⟨_, rfl, by decide +kernel⟩
  obtain ⟨records, raws, hrecords, hraws, hapart⟩ := apart_iff_unclaimed hg
  obtain rfl := Except.ok.inj hrecords
  obtain rfl := Except.ok.inj hraws
  obtain ⟨⟨node, hget, hid, hholds⟩, hlisted, -, hiff⟩ := hapart 0 _ rfl rfl
  obtain ⟨-, -, hlinked, -⟩ := hapart 2 _ rfl rfl
  obtain ⟨-, -, hlinked', -⟩ := hapart 3 _ rfl rfl
  have hage : LastFiled [(":age", .number (.natural 36))] "age"
      (":age", .number (.natural 36)) :=
    ⟨[], [], rfl, by decide +kernel, by decide +kernel, List.not_mem_nil⟩
  obtain ⟨property, hproperty, hkept⟩ := hholds.kept _ _ hage
  obtain rfl := Except.ok.inj hproperty
  have hzero : 0 ∈ g.topLevel := by
    rw [htop]
    decide
  have htwo : 2 ∈ g.topLevel := by
    rw [htop]
    decide
  have hthree : 3 ∉ g.topLevel := by
    rw [htop]
    decide
  refine ⟨g, _, hg, ⟨node, hget, hid, hkept⟩, hiff.2 ⟨hlisted.1 hzero, by decide +kernel⟩,
    ⟨htwo, (hlinked 1).2 ⟨htwo, _, rfl, by decide +kernel⟩⟩, hthree, fun i hlink => ?_⟩
  exact hthree ((hlinked' i).1 hlink).1

/-- **A made locator can be claimed.** One record without an identifier is not listed, and a link is
read that leads to another one. -/
theorem made_locator_claimed :
    ∃ g records raws, ofJson .empty claimed false = .ok g ∧ recordsOf claimed = .ok records ∧
      rawRecords .empty 0 records = .ok raws ∧
      (∃ members, records[3]? = some (.object members) ∧
        Fields.get? Vocabulary.idKey members = none ∧ 3 ∉ g.topLevel) ∧
      ∃ members, records[2]? = some (.object members) ∧
        Fields.get? Vocabulary.idKey members = none ∧ ReadLink raws 1 2 := by
  refine ⟨_, _, _, rfl, rfl, rfl, ⟨_, rfl, rfl, by decide +kernel⟩, _, rfl, rfl, ?_⟩
  exact ⟨_, "_:record2", rfl, by decide +kernel, target?_eq_some_iff.1 (by decide +kernel)⟩

end ResultGraph

end LinkedData
