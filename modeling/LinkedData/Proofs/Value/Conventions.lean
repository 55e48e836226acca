import LinkedData.Proofs.Binary64.Finite
import LinkedData.Proofs.Json.WellFormed
import LinkedData.Proofs.Timestamp.RoundTrip
import LinkedData.Proofs.Value.Equality
import LinkedData.Value.Conventions

/-!
# The conventions of documents go round

A document is read as a value, and the value is written as a document again. That document need
not be the first one, but it stands for the same value: each form in which a value is written is
caught by the rule for that form, and by none that is tried before.
-/

namespace LinkedData

/-! ## Texts -/

/-- A text that begins with another character does not begin with the piece. -/
theorem Text.after?_eq_none_of_head {piece text : String} {c d : Char}
    (hpiece : piece.toList.head? = some c) (htext : text.toList.head? = some d) (hne : c ≠ d) :
    Text.after? piece text = none := by
  rcases hafter : Text.after? piece text with _ | rest
  · rfl
  · obtain rfl := Text.after?_eq_some_iff.1 hafter
    rw [String.toList_append, List.head?_append, hpiece] at htext
    exact absurd (Option.some.inj htext) hne

namespace Value

theorem ofText_tag (r : Reference) : ofText r.tag = .reference r := by
  rw [ofText, Reference.ofTag?_tag]

/-- Only a text that begins with an at sign is a tagged name. -/
theorem ofTag?_of_head {s : String} {c : Char} (hs : s.toList.head? = some c) (hne : '@' ≠ c) :
    Reference.ofTag? s = none := by
  rw [Reference.ofTag?, Text.between?, Text.after?_eq_none_of_head rfl hs hne]
  rfl

theorem ofText_wildcard (name : String) :
    ofText ("?" ++ name) = .wildcard (if name.isEmpty then none else some name) := by
  have hhead : ("?" ++ name).toList.head? = some '?' := by simp
  rw [ofText, ofTag?_of_head hhead (by decide), Text.after?_eq_some_iff.2 rfl]

theorem ofText_term (name : String) : ofText (":" ++ name) = .term name := by
  have hhead : (":" ++ name).toList.head? = some ':' := by simp
  rw [ofText, ofTag?_of_head hhead (by decide), Text.after?_eq_none_of_head rfl hhead (by decide),
    Text.after?_eq_some_iff.2 rfl]

theorem ofText_iri (locator : String) : ofText ("<" ++ locator ++ ">") = .iri locator := by
  have hhead : ("<" ++ locator ++ ">").toList.head? = some '<' := by simp
  rw [ofText, ofTag?_of_head hhead (by decide), Text.after?_eq_none_of_head rfl hhead (by decide),
    Text.after?_eq_none_of_head rfl hhead (by decide), Text.between?_eq_some_iff.2 rfl]

/-- A timestamp begins with a digit, so no other convention takes it. -/
theorem ofText_timestamp {t : Timestamp} (h : 0 ≤ t.year ∧ t.year ≤ 9999) :
    ofText t.text = .timestamp t := by
  obtain ⟨c, hhead, hdigit⟩ := Timestamp.head?_text h
  have hne : ∀ d : Char, d.isDigit = false → d ≠ c := by
    rintro d hd rfl
    rw [hdigit] at hd
    cases hd
  rw [ofText, ofTag?_of_head hhead (hne _ rfl), Text.after?_eq_none_of_head rfl hhead (hne _ rfl),
    Text.after?_eq_none_of_head rfl hhead (hne _ rfl), Text.between?,
    Text.after?_eq_none_of_head rfl hhead (hne _ rfl), Timestamp.read?_text h]
  rfl

/-- A text stands for the same value as the text in which that value is written. -/
theorem ofText_written (s : String) :
    ∃ s', (ofText s).toJson = .string s' ∧ ofText s' = ofText s := by
  rw [ofText.eq_def s]
  split
  · rename_i r _
    exact ⟨_, rfl, ofText_tag r⟩
  · split
    · rename_i name _
      by_cases hname : name.isEmpty = true
      · rw [if_pos hname]
        exact ⟨"?", rfl, ofText_wildcard ""⟩
      · rw [if_neg hname]
        refine ⟨_, rfl, (ofText_wildcard name).trans ?_⟩
        rw [if_neg hname]
    · split
      · rename_i name _
        exact ⟨_, rfl, ofText_term name⟩
      · split
        · rename_i locator _
          exact ⟨_, rfl, ofText_iri locator⟩
        · split
          · rename_i t hread
            exact ⟨_, rfl, ofText_timestamp (Timestamp.year_of_read? hread)⟩
          · rename_i htag _ hquestion _ hcolon _ hangle _ htime
            refine ⟨s, rfl, ?_⟩
            rw [ofText, htag, hquestion, hcolon, hangle, htime]

end Value

/-! ## Numbers -/

namespace Json.Number

theorem toInt64?_ofInt64 (n : Int64) : (ofInt64 n).toInt64? = some n := by
  rw [ofInt64]
  split
  · rfl
  · rename_i h
    have hsmall := n.toInt_lt
    have hnat : n.toUInt64.toNat = n.toInt.toNat :=
      Int64.toNat_toUInt64_of_le (Int64.not_lt.1 h)
    have hfits : n.toUInt64.toNat < 1 <<< 63 := by
      have hbound : (1 <<< 63 : Nat) = 2 ^ 63 := rfl
      omega
    rw [toInt64?, if_pos hfits, Int64.toInt64_toUInt64]

theorem wellFormed_ofInt64 (n : Int64) : (ofInt64 n).WellFormed := by
  rw [ofInt64]
  split
  · rename_i h
    exact h
  · trivial

/-- A well-formed number is read as a whole number or as a finite one. -/
theorem ofNumber_cases {n : Number} (h : n.WellFormed) :
    (∃ m, Value.ofNumber n = .integer m) ∨
      ∃ x : Binary64, Value.ofNumber n = .float x ∧ x.isFinite = true := by
  cases n with
  | negative m => exact .inl ⟨m, rfl⟩
  | float x => exact .inr ⟨x, rfl, h⟩
  | natural m =>
    rw [Value.ofNumber, toInt64?]
    split
    · exact .inl ⟨_, rfl⟩
    · exact .inr ⟨_, rfl, Binary64.isFinite_ofNat (Nat.le_of_lt m.toNat_lt)⟩

end Json.Number

/-! ## Whole documents -/

namespace Value

theorem names_entriesOfJson (members : List (String × Json)) :
    Fields.names (entriesOfJson members) = Fields.names members := by
  induction members with
  | nil => rfl
  | cons member rest ih => exact congrArg (member.1 :: ·) ih

theorem names_entriesToJson (entries : List (String × Value)) :
    Fields.names (entriesToJson entries) = Fields.names entries := by
  induction entries with
  | nil => rfl
  | cons entry rest ih => exact congrArg (entry.1 :: ·) ih

/-- The value of the document is proper, and is written as a well-formed document of the same
depth that stands for the same value. -/
structure GoesRound (document : Json) : Prop where
  /-- the second document stands for the same value -/
  value : ofJson (ofJson document).toJson = ofJson document
  /-- the value is proper -/
  proper : (ofJson document).Proper
  /-- the second document is well-formed -/
  wellFormed : (ofJson document).toJson.WellFormed
  /-- the second document is as deep as the first -/
  depth : (ofJson document).toJson.depth = document.depth

theorem goesRound_string (s : String) : GoesRound (.string s) := by
  obtain ⟨s', hwritten, hback⟩ := ofText_written s
  refine ⟨?_, ?_, ?_, ?_⟩
  · rw [ofJson, hwritten, ofJson, hback]
  · rw [ofJson]
    cases hvalue : ofText s with
    -- no convention of texts leads to these
    | float x =>
      rw [hvalue, toJson, Json.ofBinary64] at hwritten
      split at hwritten <;> cases hwritten
    | node _ | list _ =>
      rw [hvalue] at hwritten
      cases hwritten
    | _ => trivial
  · rw [ofJson, hwritten]
    trivial
  · rw [ofJson, hwritten]
    rfl

theorem goesRound_number {n : Json.Number} (h : n.WellFormed) : GoesRound (.number n) := by
  rcases Json.Number.ofNumber_cases h with ⟨m, hvalue⟩ | ⟨x, hvalue, hfinite⟩
  · have hback : ofNumber (.ofInt64 m) = .integer m := by
      rw [ofNumber, Json.Number.toInt64?_ofInt64]
    refine ⟨?_, ?_, ?_, ?_⟩ <;> rw [ofJson, hvalue]
    · exact hback
    · trivial
    · exact Json.Number.wellFormed_ofInt64 m
    · rfl
  · have hwritten : (Value.float x).toJson = .number (.float x) := by
      rw [toJson, Json.ofBinary64, if_pos hfinite]
    refine ⟨?_, ?_, ?_, ?_⟩ <;> rw [ofJson, hvalue]
    · rw [hwritten]
      rfl
    · exact hfinite
    · rw [hwritten]
      exact hfinite
    · rw [hwritten]
      rfl

mutual

/-- Every document goes round. -/
theorem goesRound : ∀ {document : Json}, document.WellFormed → GoesRound document
  | .null, _ => ⟨rfl, trivial, trivial, rfl⟩
  | .boolean b, _ => ⟨rfl, trivial, trivial, rfl⟩
  | .number n, h => goesRound_number h
  | .string s, _ => goesRound_string s
  | .array items, h => by
    rw [Json.WellFormed] at h
    obtain ⟨hvalue, hproper, hwellFormed, hdepth⟩ := goesRoundItems h
    exact ⟨congrArg Value.list hvalue, hproper, hwellFormed, congrArg (· + 1) hdepth⟩
  | .object members, h => by
    rw [Json.WellFormed] at h
    obtain ⟨hdistinct, h⟩ := h
    obtain ⟨hvalue, hproper, hwellFormed, hdepth⟩ := goesRoundMembers h
    have hentries : Fields.Distinct (entriesOfJson members) := by
      rw [Fields.Distinct, names_entriesOfJson]
      exact hdistinct
    have hmembers : Fields.Distinct (entriesToJson (entriesOfJson members)) := by
      rw [Fields.Distinct, names_entriesToJson]
      exact hentries
    exact ⟨congrArg Value.node hvalue, ⟨hentries, hproper⟩, ⟨hmembers, hwellFormed⟩,
      congrArg (· + 1) hdepth⟩

theorem goesRoundItems : ∀ {items : List Json}, Json.WellFormedItems items →
    itemsOfJson (itemsToJson (itemsOfJson items)) = itemsOfJson items ∧
      ProperItems (itemsOfJson items) ∧ Json.WellFormedItems (itemsToJson (itemsOfJson items)) ∧
      Json.depthItems (itemsToJson (itemsOfJson items)) = Json.depthItems items
  | [], _ => ⟨rfl, trivial, trivial, rfl⟩
  | item :: rest, h => by
    rw [Json.WellFormedItems] at h
    have hitem := goesRound h.1
    obtain ⟨hvalue, hproper, hwellFormed, hdepth⟩ := goesRoundItems h.2
    refine ⟨?_, ⟨hitem.proper, hproper⟩, ⟨hitem.wellFormed, hwellFormed⟩, ?_⟩
    · simp only [itemsOfJson, itemsToJson, hitem.value, hvalue]
    · simp only [itemsOfJson, itemsToJson, Json.depthItems, hitem.depth, hdepth]

theorem goesRoundMembers : ∀ {members : List (String × Json)}, Json.WellFormedMembers members →
    entriesOfJson (entriesToJson (entriesOfJson members)) = entriesOfJson members ∧
      ProperEntries (entriesOfJson members) ∧
      Json.WellFormedMembers (entriesToJson (entriesOfJson members)) ∧
      Json.depthMembers (entriesToJson (entriesOfJson members)) = Json.depthMembers members
  | [], _ => ⟨rfl, trivial, trivial, rfl⟩
  | (key, value) :: rest, h => by
    rw [Json.WellFormedMembers] at h
    have hmember := goesRound h.1
    obtain ⟨hvalue, hproper, hwellFormed, hdepth⟩ := goesRoundMembers h.2
    refine ⟨?_, ⟨hmember.proper, hproper⟩, ⟨hmember.wellFormed, hwellFormed⟩, ?_⟩
    · simp only [entriesOfJson, entriesToJson, hmember.value, hvalue]
    · simp only [entriesOfJson, entriesToJson, Json.depthMembers, hmember.depth, hdepth]

end

end Value

end LinkedData
