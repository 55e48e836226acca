import LinkedData.Proofs.Json.RoundTrip
import LinkedData.Proofs.Property
import LinkedData.Proofs.Value.Conventions
import LinkedData.Proofs.Value.Leaves

/-!
# Values written and read again

Not every value is read back from the document in which it is written: a text that looks like a
term is read as a term. What is lost is lost at the leaves. A value that is built of scalars, lists,
and nodes without a key twice (`Value.Tidy`) is read back exactly if each of its leaves is
(`Value.Tidy.equals_again_iff`).
-/

namespace LinkedData

/-! ## Timestamps that are not read back -/

namespace Timestamp

/-- A year that has no four digits is written behind a sign. -/
theorem head?_text_of_year {t : Timestamp} (h : ¬ (0 ≤ t.year ∧ t.year ≤ 9999)) :
    t.text.toList.head? = some '-' ∨ t.text.toList.head? = some '+' := by
  rw [text, yearText, if_neg h]
  by_cases hneg : t.year < 0
  · rw [if_pos hneg]
    exact .inl (by simp)
  · rw [if_neg hneg]
    exact .inr (by simp)

/-- A timestamp begins with a digit. -/
theorem read?_eq_none_of_head {s : String} {c : Char} (hs : s.toList.head? = some c)
    (hc : c.isDigit = false) : read? s = none := by
  have hyear : readDigits? 4 4 s.toList = none := by
    obtain ⟨rest, hrest⟩ := List.head?_eq_some_iff.1 hs
    rw [hrest, readDigits?]
    simp [hc]
  rw [read?, hyear]
  rfl

end Timestamp

namespace Value

/-! ## Texts that are no more than texts -/

/-- No convention gives the text another meaning. -/
structure IsText (s : String) : Prop where
  /-- it is no tagged name -/
  untagged : Reference.ofTag? s = none
  /-- it does not begin like a wildcard -/
  noWildcard : Text.after? "?" s = none
  /-- it does not begin like a term -/
  noTerm : Text.after? ":" s = none
  /-- it does not stand in angle brackets -/
  unbracketed : Text.between? "<" ">" s = none
  /-- it is no timestamp with an offset -/
  undated : Timestamp.read? s = none

instance (s : String) : Decidable (IsText s) :=
  decidable_of_iff (Reference.ofTag? s = none ∧ Text.after? "?" s = none ∧
      Text.after? ":" s = none ∧ Text.between? "<" ">" s = none ∧ Timestamp.read? s = none)
    ⟨fun h => ⟨h.1, h.2.1, h.2.2.1, h.2.2.2.1, h.2.2.2.2⟩,
      fun h => ⟨h.untagged, h.noWildcard, h.noTerm, h.unbracketed, h.undated⟩⟩

theorem ofText_eq_string_iff {s : String} : ofText s = .string s ↔ IsText s := by
  constructor
  · intro h
    rw [ofText] at h
    -- each of the conventions would give a value of another kind
    split at h
    · cases h
    · split at h
      · cases h
      · split at h
        · cases h
        · split at h
          · cases h
          · split at h
            · cases h
            · constructor <;> assumption
  · intro h
    rw [ofText, h.untagged, h.noWildcard, h.noTerm, h.unbracketed, h.undated]

/-- A text that begins with a sign is no more than a text. -/
theorem isText_of_sign {s : String} {c : Char} (hs : s.toList.head? = some c)
    (hc : c = '-' ∨ c = '+') : IsText s := by
  have hne : '@' ≠ c ∧ '?' ≠ c ∧ ':' ≠ c ∧ '<' ≠ c ∧ c.isDigit = false := by
    rcases hc with rfl | rfl <;> decide
  obtain ⟨hat, hquestion, hcolon, hangle, hdigit⟩ := hne
  refine ⟨ofTag?_of_head hs hat, Text.after?_eq_none_of_head rfl hs hquestion,
    Text.after?_eq_none_of_head rfl hs hcolon, ?_, Timestamp.read?_eq_none_of_head hs hdigit⟩
  rw [Text.between?, Text.after?_eq_none_of_head rfl hs hangle]
  rfl

/-- A timestamp whose year has no four digits is written as a text that is no more than a text. -/
theorem ofText_text_of_year {t : Timestamp} (h : ¬ (0 ≤ t.year ∧ t.year ≤ 9999)) :
    ofText t.text = .string t.text := by
  rcases Timestamp.head?_text_of_year h with hhead | hhead
  · exact ofText_eq_string_iff.2 (isText_of_sign hhead (.inl rfl))
  · exact ofText_eq_string_iff.2 (isText_of_sign hhead (.inr rfl))

/-! ## Leaves -/

/-- Written and read again, the scalar is what it was. -/
def Survives : Value → Prop
  | .float x => x.isFinite = true
  | .string s => IsText s
  | .timestamp t => 0 ≤ t.year ∧ t.year ≤ 9999
  | .custom _ _ => False
  | _ => True

instance : DecidablePred Survives
  | .float x => inferInstanceAs (Decidable (x.isFinite = true))
  | .string s => inferInstanceAs (Decidable (IsText s))
  | .timestamp t => inferInstanceAs (Decidable (0 ≤ t.year ∧ t.year ≤ 9999))
  | .custom _ _ => isFalse id
  | .null | .boolean _ | .integer _ | .reference _ | .term _ | .iri _ | .node _ | .list _
  | .wildcard _ => isTrue trivial

theorem equals_string_iff {v : Value} {s : String} :
    v.equals (.string s) = true ↔ v = .string s := by
  cases v with
  | string s' => rw [equals, beq_iff_eq, Value.string.injEq]
  | _ => exact iff_of_false Bool.false_ne_true nofun

/-- No text stands for a custom value. -/
theorem not_ofText_equals_custom (s kind payload : String) :
    ¬ (ofText s).equals (.custom kind payload) = true := by
  rw [ofText]
  repeat' split
  all_goals exact Bool.false_ne_true

theorem equals_again_timestamp_iff (t : Timestamp) :
    (ofJson (Value.timestamp t).toJson).equals (.timestamp t) = true ↔
      0 ≤ t.year ∧ t.year ≤ 9999 := by
  rw [toJson, ofJson]
  by_cases hyear : 0 ≤ t.year ∧ t.year ≤ 9999
  · rw [ofText_timestamp hyear]
    exact iff_of_true t.sameInstant_self hyear
  · -- behind a sign it is no timestamp when it is read, nor anything else but a text
    rw [ofText_text_of_year hyear]
    exact iff_of_false Bool.false_ne_true hyear

theorem equals_again_float_iff (x : Binary64) :
    (ofJson (Value.float x).toJson).equals (.float x) = true ↔ x.isFinite = true := by
  rw [toJson, Json.ofBinary64]
  by_cases hfinite : x.isFinite = true
  · rw [if_pos hfinite]
    exact iff_of_true (Binary64.equals_self hfinite) hfinite
  · rw [if_neg hfinite]
    exact iff_of_false Bool.false_ne_true hfinite

/-- A scalar is read back exactly if it survives. -/
theorem equals_again_scalar_iff {v : Value} (h : v.isScalar = true) :
    (ofJson v.toJson).equals v = true ↔ v.Survives := by
  cases v with
  | null => exact iff_of_true rfl trivial
  | boolean b => exact iff_of_true (beq_self_eq_true b) trivial
  | integer n =>
    have hback : ofNumber (.ofInt64 n) = .integer n := by
      rw [ofNumber, Json.Number.toInt64?_ofInt64]
    rw [toJson, ofJson, hback]
    exact iff_of_true (beq_self_eq_true n) trivial
  | float x => exact equals_again_float_iff x
  | string s => exact equals_string_iff.trans ofText_eq_string_iff
  | timestamp t => exact equals_again_timestamp_iff t
  | reference r =>
    rw [toJson, ofJson, ofText_tag]
    exact iff_of_true (beq_self_eq_true r.name) trivial
  | term name =>
    rw [toJson, ofJson, ofText_term]
    exact iff_of_true (beq_self_eq_true name) trivial
  | iri locator =>
    rw [toJson, ofJson, ofText_iri]
    exact iff_of_true (beq_self_eq_true locator) trivial
  | custom kind payload => exact iff_of_false (not_ofText_equals_custom payload kind payload) id
  | node _ | list _ | wildcard _ => cases h

/-! ## Whole values -/

/-- The value is built of scalars, lists, and nodes that have no key twice. -/
inductive Tidy : Value → Prop where
  /-- a scalar -/
  | scalar {v : Value} : v.isScalar = true → Tidy v
  /-- a list -/
  | list {items : List Value} : (∀ item ∈ items, Tidy item) → Tidy (.list items)
  /-- a node -/
  | node {entries : Node} : entries.Distinct → (∀ entry ∈ entries, Tidy entry.2) →
      Tidy (.node entries)

theorem leaves_of_isScalar {v : Value} (h : v.isScalar = true) : v.leaves = [v] := by
  cases v with
  | node _ | list _ | wildcard _ => cases h
  | _ => rfl

theorem itemsEqual_again_iff {items : List Value} :
    itemsEqual (itemsOfJson (itemsToJson items)) items = true ↔
      ∀ item ∈ items, (ofJson item.toJson).equals item = true := by
  induction items with
  | nil => exact iff_of_true rfl nofun
  | cons item rest ih =>
    rw [itemsToJson, itemsOfJson, itemsEqual, Bool.and_eq_true, ih, List.forall_mem_cons]

theorem entries_again (entries : List (String × Value)) :
    entriesOfJson (entriesToJson entries) =
      entries.map fun entry => (entry.1, ofJson entry.2.toJson) := by
  induction entries with
  | nil => rfl
  | cons entry rest ih =>
    rw [entriesToJson, entriesOfJson, ih]
    rfl

/-- Under distinct keys a property is compared with itself. -/
theorem entriesWithin_again_iff {entries : Node} (h : entries.Distinct) :
    entriesWithin (entriesOfJson (entriesToJson entries)) entries = true ↔
      ∀ entry ∈ entries, (ofJson entry.2.toJson).equals entry.2 = true := by
  rw [entriesWithin_iff, entries_again, List.forall_mem_map]
  refine forall₂_congr fun entry hentry => ?_
  have hget := h.get?_of_mem hentry
  constructor
  · rintro ⟨other, hother, heq⟩
    obtain rfl := Option.some.inj (hget.symm.trans hother)
    exact heq
  · exact fun heq => ⟨entry.2, hget, heq⟩

/-- **What is lost is lost at the leaves.** -/
theorem Tidy.equals_again_iff {v : Value} (h : v.Tidy) :
    (ofJson v.toJson).equals v = true ↔ ∀ leaf ∈ v.leaves, leaf.Survives := by
  induction h with
  | scalar hscalar =>
    rw [leaves_of_isScalar hscalar, List.forall_mem_singleton, equals_again_scalar_iff hscalar]
  | list _ ih =>
    rw [toJson, ofJson, equals, itemsEqual_again_iff, leaves, forall_mem_leavesOfItems]
    exact forall₂_congr ih
  | node hdistinct _ ih =>
    rw [toJson, ofJson, equals, Bool.and_eq_true, entriesWithin_again_iff hdistinct, leaves,
      forall_mem_leavesOfEntries, entries_again, List.length_map]
    rw [and_iff_right (beq_self_eq_true _)]
    exact forall₂_congr ih

/-! ## Their documents -/

theorem wellFormed_toJson_of_isScalar {v : Value} (h : v.isScalar = true) :
    v.toJson.WellFormed := by
  cases v with
  | integer n => exact Json.Number.wellFormed_ofInt64 n
  | float x =>
    rw [toJson, Json.ofBinary64]
    split
    · rename_i hfinite
      exact hfinite
    · trivial
  | node _ | list _ | wildcard _ => cases h
  | _ => trivial

theorem wellFormed_itemsToJson {items : List Value}
    (h : ∀ item ∈ items, item.toJson.WellFormed) : Json.WellFormedItems (itemsToJson items) := by
  induction items with
  | nil => trivial
  | cons item rest ih =>
    rw [List.forall_mem_cons] at h
    exact ⟨h.1, ih h.2⟩

theorem wellFormed_entriesToJson {entries : List (String × Value)}
    (h : ∀ entry ∈ entries, entry.2.toJson.WellFormed) :
    Json.WellFormedMembers (entriesToJson entries) := by
  induction entries with
  | nil => trivial
  | cons entry rest ih =>
    rw [List.forall_mem_cons] at h
    exact ⟨h.1, ih h.2⟩

/-- A tidy value is written as a well-formed document. -/
theorem Tidy.wellFormed_toJson {v : Value} (h : v.Tidy) : v.toJson.WellFormed := by
  induction h with
  | scalar hscalar => exact wellFormed_toJson_of_isScalar hscalar
  | list _ ih => exact wellFormed_itemsToJson ih
  | node hdistinct _ ih =>
    refine ⟨?_, wellFormed_entriesToJson ih⟩
    rw [Fields.Distinct, names_entriesToJson]
    exact hdistinct

/-- Within what can be read, the text of the document is read as the document is. -/
theorem Tidy.read?_compact {v : Value} (h : v.Tidy) (hdepth : v.toJson.depth ≤ Json.maxDepth)
    (hfloats : ∀ x, .float x ∈ v.toJson.numbers → (Json.Number.float x).ReadsBack) :
    (Json.read? v.toJson.compact).map ofJson = some (ofJson v.toJson) := by
  rw [Json.read?_compact h.wellFormed_toJson hdepth hfloats, Option.map_some]

end Value

end LinkedData
