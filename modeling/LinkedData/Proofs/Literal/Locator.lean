import LinkedData.Proofs.Literal.RoundTrip

/-!
# Locators on the wire

A locator is read as a reference, as a term or as a foreign locator, whichever namespace it is in.
The value that it is read as is written as a token, which is the locator in angle brackets or, for a
term, its name behind a colon. Neither can be taken for another locator (`Spells.unique`). So
reading a locator and writing what was read loses nothing, unless the name of a term would be
written in another way (`decodeLocator_encoded`). The null is not written as a locator at all.
-/

namespace LinkedData.Literal

/-! ## What a token spells -/

/-- The token is a way to write the locator. -/
inductive Spells : String → String → Prop where
  /-- the locator in angle brackets -/
  | whole (locator : String) : Spells (bracketed locator) locator
  /-- the name of a term behind a colon -/
  | abbreviated (name : String) : Spells (":" ++ name) (Vocabulary.terms ++ name)

theorem bracketed_ne_abbreviated (locator name : String) : bracketed locator ≠ ":" ++ name := by
  have hmarks : Text.Apart "<" ":" := by decide
  rw [bracketed, String.append_assoc]
  exact hmarks.append_ne_append _ _

/-- A token is a way to write one locator only. -/
theorem Spells.unique {token locator other : String} (h : Spells token locator)
    (h' : Spells token other) : locator = other := by
  generalize htoken : token = same at h'
  cases h with
  | whole =>
    cases h' with
    | whole => exact (String.append_right_inj "<").1 ((String.append_left_inj ">").1 htoken)
    | abbreviated name => exact absurd htoken (bracketed_ne_abbreviated locator name)
  | abbreviated name =>
    cases h' with
    | whole => exact absurd htoken.symm (bracketed_ne_abbreviated other name)
    | abbreviated name' => rw [(String.append_right_inj ":").1 htoken]

/-! ## What a locator is read as -/

/-- A locator is the null, or in the namespace of identifiers or of terms, or foreign. -/
theorem decodeLocator_cases (locator : String) :
    (locator = Vocabulary.nil ∧ decodeLocator locator = .null) ∨
      (∃ r : Reference, locator = r.locator ∧ decodeLocator locator = .reference r) ∨
      (∃ name, locator = Vocabulary.terms ++ name ∧ decodeLocator locator = .term name) ∨
      decodeLocator locator = .iri locator := by
  rw [decodeLocator]
  split
  · rename_i hnil
    exact .inl ⟨hnil, rfl⟩
  · split
    · rename_i r hr
      obtain ⟨name, hids, hname⟩ := Option.bind_eq_some_iff.1 hr
      refine .inr (.inl ⟨r, ?_, rfl⟩)
      rw [Text.after?_eq_some_iff.1 hids, Reference.locator, Reference.name_of_ofName? hname]
    · split
      · rename_i name hterm
        exact .inr (.inr (.inl ⟨name, Text.after?_eq_some_iff.1 hterm, rfl⟩))
      · exact .inr (.inr (.inr rfl))

/-! ## References -/

theorem normalize?_tag (r : Reference) : Reference.normalize? r.tag = some r := by
  rw [Reference.normalize?, Reference.ofTag?_tag, Option.some_or]

/-- What is taken for a reference is its tagged form or its name. -/
theorem normalize?_cases {raw : String} {r : Reference} (h : Reference.normalize? raw = some r) :
    raw = r.tag ∨ raw = r.name := by
  rcases Option.or_eq_some_iff.1 h with htag | ⟨-, hname⟩
  · obtain ⟨name, hbetween, hname⟩ := Option.bind_eq_some_iff.1 htag
    rw [Text.between?_eq_some_iff.1 hbetween, Reference.tag, Reference.name_of_ofName? hname]
    exact .inl rfl
  · exact .inr (Reference.name_of_ofName? hname).symm

/-! ## Reading and writing again -/

/-- **A locator that is read and written again stands for the same resource.** What any locator but
the null is read as has a token, and this spells the locator and no other, provided that the name of
a term neither begins with `@` nor is in angle brackets. And a text that is taken for a reference is
its tagged form or its name; the tagged form is taken for the same reference, and its locator is
read as it. -/
theorem decodeLocator_encoded (codec : Codec) :
    (∀ locator, locator ≠ Vocabulary.nil →
      (∀ name, locator = Vocabulary.terms ++ name → Text.startsWith "@" name = false ∧
        (Text.startsWith "<" name && Text.endsWith ">" name) = false) →
      ∃ token, codec.encodeLiteral (decodeLocator locator) = .ok token ∧
        Spells token locator ∧ ∀ other, Spells token other → other = locator) ∧
    ∀ raw r, Reference.normalize? raw = some r → (raw = r.tag ∨ raw = r.name) ∧
      Reference.normalize? r.tag = some r ∧ decodeLocator r.locator = .reference r := by
  constructor
  · intro locator hpresent hplain
    obtain ⟨token, htoken, hspells⟩ : ∃ token,
        codec.encodeLiteral (decodeLocator locator) = .ok token ∧ Spells token locator := by
      rcases decodeLocator_cases locator with
        ⟨hnil, -⟩ | ⟨r, rfl, hr⟩ | ⟨name, rfl, hname⟩ | hforeign
      · exact absurd hnil hpresent
      · rw [hr]
        exact ⟨_, rfl, .whole _⟩
      · obtain ⟨hunreserved, hunwrapped⟩ := hplain name rfl
        rw [hname]
        exact ⟨_, encodeTerm_of_plain hunreserved hunwrapped, .abbreviated name⟩
      · rw [hforeign]
        exact ⟨_, rfl, .whole _⟩
    exact ⟨token, htoken, hspells, fun _ hother => hother.unique hspells⟩
  · exact fun _ r h => ⟨normalize?_cases h, normalize?_tag r, decodeLocator_locator r⟩

/-- A term is written behind a colon, and what is no word in the namespace of identifiers is foreign
and written as it is. -/
theorem decodeLocator_encoded_twoWords :
    (Codec.empty.encodeLiteral (decodeLocator (Vocabulary.terms ++ "knows")) = .ok ":knows" ∧
      Spells ":knows" (Vocabulary.terms ++ "knows")) ∧
    (Codec.empty.encodeLiteral (decodeLocator (Vocabulary.ids ++ "two words")) =
        .ok "<http://grel.org/ids/id/two words>" ∧
      Spells "<http://grel.org/ids/id/two words>" (Vocabulary.ids ++ "two words")) ∧
    ∃ r, Reference.normalize? "@id(alice)" = some r ∧ Reference.normalize? r.tag = some r ∧
      decodeLocator r.locator = .reference r := by
  obtain ⟨hlocators, hreferences⟩ := decodeLocator_encoded .empty
  have happart : Text.Apart Vocabulary.ids Vocabulary.terms := by decide
  refine ⟨⟨rfl, ?_⟩, ⟨rfl, ?_⟩, ⟨"alice", by decide⟩, rfl, (hreferences "@id(alice)" _ rfl).2⟩
  · obtain ⟨token, htoken, hspells, -⟩ := hlocators (Vocabulary.terms ++ "knows") (by decide)
      fun name h => by
        obtain rfl := (String.append_right_inj _).1 h
        decide
    obtain rfl : ":knows" = token := Except.ok.inj htoken
    exact hspells
  · obtain ⟨token, htoken, hspells, -⟩ := hlocators (Vocabulary.ids ++ "two words") (by decide)
      fun name h => absurd h (happart.append_ne_append _ _)
    obtain rfl : "<http://grel.org/ids/id/two words>" = token := Except.ok.inj htoken
    exact hspells

end LinkedData.Literal
