import LinkedData.Proofs.Result.Records

/-!
# Keys that come back

A key is stored as a predicate, a store answers with the full locator of the predicate, and decoding
files this under its local name. So a key goes through two rules that are not made for each other:
encoding looks at its first and last characters, decoding for a `#` anywhere in the locator. There
are four kinds of keys that encoding takes (`Stored`). Only the key of a type and plain keys come
back as they were, and no two of these under one name (`filed_again_iff`).
-/

namespace LinkedData

open Literal

namespace Description

/-- The key that a record has for a predicate: the full locator of it, or the key of a type. -/
def recordKey (predicate : String) : String :=
  match Token.ofText? predicate with
  | some (.name name) => Vocabulary.terms ++ name
  | some (.locator locator) => locator
  | _ => if predicate = "rdf:type" then "@type" else predicate

theorem recordKey_name (name : String) : recordKey (":" ++ name) = Vocabulary.terms ++ name := by
  rw [recordKey, Token.ofText?_name]

theorem recordKey_bracketed (locator : String) : recordKey (bracketed locator) = locator := by
  rw [recordKey, Token.ofText?_bracketed]

theorem recordKey_type : recordKey "rdf:type" = "@type" := by
  decide +kernel

end Description

namespace ResultGraph

open Description

/-! ## Kinds of keys -/

/-- The key is stored as the predicate, and comes as the full locator. -/
inductive Stored : String → String → String → Prop where
  /-- the key of a type -/
  | type : Stored "@type" "rdf:type" "@type"
  /-- another reserved key; the term that it stands for has another local name -/
  | reserved {key locator : String} (hterm : reservedTerm? key = some (bracketed locator))
      (hname : localName locator ≠ key) : Stored key (bracketed locator) locator
  /-- a locator in angle brackets -/
  | wrapped (locator : String) : Stored (bracketed locator) (bracketed locator) locator
  /-- the name of a property in the own vocabulary -/
  | own {key : String} (hunreserved : Text.startsWith "@" key = false)
      (hunwrapped : (Text.startsWith "<" key && Text.endsWith ">" key) = false) :
      Stored key (":" ++ key) (Vocabulary.terms ++ key)

theorem hashNamespace_rdfs : HashNamespace Vocabulary.rdfs :=
  ⟨by decide +kernel, by decide +kernel, by decide +kernel⟩

theorem hashNamespace_owl : HashNamespace Vocabulary.owl :=
  ⟨by decide +kernel, by decide +kernel, by decide +kernel⟩

/-- A term in a namespace does not have a reserved key for its name: that begins with `@`. -/
theorem exists_stored_of_reservedTerm? {key predicate : String}
    (hat : Text.startsWith "@" key = true) (h : reservedTerm? key = some predicate) :
    ∃ full, Stored key predicate full := by
  rcases reservedTerm?_cases h with ⟨rfl, rfl⟩ | ⟨ns, term, hns, rfl, hterm⟩
  · exact ⟨_, .type⟩
  · have hhash : HashNamespace ns := by
      rcases hns with rfl | rfl
      exacts [hashNamespace_rdfs, hashNamespace_owl]
    have hname : localName (ns ++ term) = term :=
      hhash.localName_append_eq_iff.2 fun hmem => absurd (hterm '#' hmem) (by decide)
    refine ⟨ns ++ term, .reserved h ?_⟩
    rw [hname]
    rintro rfl
    obtain ⟨rest, rfl⟩ := Text.startsWith_iff.1 hat
    exact absurd (hterm '@' (by simp)) (by decide)

theorem exists_stored_of_encodeTerm {key predicate : String}
    (h : encodeTerm key = .ok predicate) : ∃ full, Stored key predicate full := by
  rcases encodeTerm_cases h with ⟨hat, hreserved⟩ | ⟨locator, rfl, rfl⟩ |
    ⟨hunreserved, hunwrapped, rfl⟩
  · exact exists_stored_of_reservedTerm? hat hreserved
  · exact ⟨locator, .wrapped locator⟩
  · exact ⟨_, .own hunreserved hunwrapped⟩

/-- The full locator only depends on the predicate. -/
theorem Stored.recordKey {key predicate full : String} (h : Stored key predicate full) :
    recordKey predicate = full := by
  cases h with
  | type => exact recordKey_type
  | reserved => exact recordKey_bracketed _
  | wrapped => exact recordKey_bracketed _
  | own => exact recordKey_name _

/-! ## Coming back -/

/-- A local name is not longer than the key that it is cut from. -/
theorem length_localName_le (key : String) : (localName key).length ≤ key.length := by
  rw [localName]
  split
  · exact Nat.le_refl _
  · split
    · rename_i name hname
      rw [Text.after?_eq_some_iff.1 hname, String.length_append]
      exact Nat.le_add_left _ _
    · rw [String.length_ofList, afterLastHash, List.length_reverse]
      calc _ ≤ key.toList.reverse.length := (List.takeWhile_prefix _).length_le
        _ = key.length := by rw [List.length_reverse, String.length_toList]

/-- So it never has the brackets in which a locator was stored. -/
theorem localName_ne_bracketed (locator : String) : localName locator ≠ bracketed locator := by
  intro h
  have hle := length_localName_le locator
  rw [h, bracketed, String.length_append, String.length_append] at hle
  have hopening : "<".length = 1 := rfl
  omega

/-- The keys that come back as they were. -/
def Returns (key : String) : Prop :=
  key = "@type" ∨ PlainKey key

/-- Such a key is not stored in brackets. -/
theorem not_returns_of_bracketed {key locator : String}
    (h : Triple.encodeKey key = .ok (bracketed locator)) : ¬ Returns key := by
  rw [bracketed, String.append_assoc] at h
  rintro (rfl | hplain)
  · have htype : Triple.encodeKey "@type" = .ok "rdf:type" := rfl
    have happart : Text.Apart "<" "rdf:type" := by decide +kernel
    exact happart.append_ne _ (Except.ok.inj (h.symm.trans htype))
  · have happart : Text.Apart "<" ":" := by decide +kernel
    exact happart.append_ne_append _ _
      (Except.ok.inj (h.symm.trans (Triple.encodeKey_of_plainKey hplain)))

theorem Stored.localName_eq_iff {key predicate full : String} (h : Stored key predicate full)
    (hkey : Triple.encodeKey key = .ok predicate) : localName full = key ↔ Returns key := by
  cases h with
  | type => exact iff_of_true rfl (.inl rfl)
  | reserved _ hname => exact iff_of_false hname (not_returns_of_bracketed hkey)
  | wrapped => exact iff_of_false (localName_ne_bracketed _) (not_returns_of_bracketed hkey)
  | own hunreserved hunwrapped =>
    obtain ⟨hdollar, hquestion, -⟩ := encodeKey_eq_ok hkey
    rw [hashNamespace_terms.localName_append_eq_iff, Returns, or_iff_right]
    · exact ⟨fun hwhole => ⟨hwhole, hunreserved, hdollar, hquestion, hunwrapped⟩, (·.whole)⟩
    · rintro rfl
      cases hunreserved

/-- **Plain keys and the key of a type come back.** A key that encoding takes is of one of the four
kinds, so that it comes as one full locator. The local name of this is the key again exactly if the
key is that of a type, or plain: without `@` at the front, without angle brackets around it, and
without a `#`. So two different ones of these keys never come back as one. -/
theorem filed_again_iff {key predicate : String} (h : Triple.encodeKey key = .ok predicate) :
    ∃ full, Stored key predicate full ∧ recordKey predicate = full ∧
      (localName full = key ↔ Returns key) ∧
      ∀ key' predicate', Triple.encodeKey key' = .ok predicate' → Returns key → Returns key' →
        (localName (recordKey predicate) = localName (recordKey predicate') ↔ key = key') := by
  have hfiled {key predicate : String} (h : Triple.encodeKey key = .ok predicate) :
      ∃ full, Stored key predicate full ∧ recordKey predicate = full ∧
        (localName full = key ↔ Returns key) := by
    obtain ⟨full, hstored⟩ := exists_stored_of_encodeTerm (encodeKey_eq_ok h).2.2
    exact ⟨full, hstored, hstored.recordKey, hstored.localName_eq_iff h⟩
  obtain ⟨full, hstored, hfull, hiff⟩ := hfiled h
  refine ⟨full, hstored, hfull, hiff, fun key' predicate' h' hkey hkey' => ?_⟩
  obtain ⟨full', -, hfull', hiff'⟩ := hfiled h'
  rw [hfull, hfull', hiff.2 hkey, hiff'.2 hkey']

theorem filed_again_iff_knows :
    Triple.encodeKey "knows" = .ok ":knows" ∧ Returns "knows" ∧
      localName (recordKey ":knows") = "knows" ∧
      Triple.encodeKey "@type" = .ok "rdf:type" ∧ Returns "@type" ∧
      localName (recordKey "rdf:type") = "@type" ∧
      localName (recordKey ":knows") ≠ localName (recordKey "rdf:type") ∧
      Triple.encodeKey "@same_as" = .ok "<http://www.w3.org/2002/07/owl#sameAs>" ∧
      ¬ Returns "@same_as" ∧
      localName (recordKey "<http://www.w3.org/2002/07/owl#sameAs>") ≠ "@same_as" := by
  have hknows : Triple.encodeKey "knows" = .ok ":knows" := rfl
  have htype : Triple.encodeKey "@type" = .ok "rdf:type" := rfl
  have hsame : Triple.encodeKey "@same_as" = .ok "<http://www.w3.org/2002/07/owl#sameAs>" := rfl
  have hplain : PlainKey "knows" := by decide +kernel
  have hreserved : ¬ Returns "@same_as" := by
    rintro (heq | hplain)
    · exact absurd heq (by decide)
    · exact absurd hplain (by decide +kernel)
  obtain ⟨_, -, rfl, hiff, hapart⟩ := filed_again_iff hknows
  obtain ⟨_, -, rfl, hiff', -⟩ := filed_again_iff htype
  obtain ⟨_, -, rfl, hiff'', -⟩ := filed_again_iff hsame
  have hne : localName (recordKey ":knows") ≠ localName (recordKey "rdf:type") :=
    mt (hapart "@type" _ htype (.inr hplain) (.inl rfl)).1 (by decide)
  exact ⟨hknows, .inr hplain, hiff.2 (.inr hplain), htype, .inl rfl, hiff'.2 (.inl rfl), hne, hsame,
    hreserved, fun h => hreserved (hiff''.1 h)⟩

/-- **A key can come back as another.** A key in angle brackets is filed under the name at the end
of its locator, and so is the key that consists of this name. -/
theorem filed_under_other_key :
    Triple.encodeKey "<http://example.org/x#name>" = .ok "<http://example.org/x#name>" ∧
      recordKey "<http://example.org/x#name>" = "http://example.org/x#name" ∧
      localName "http://example.org/x#name" = "name" ∧
      Triple.encodeKey "name" = .ok ":name" ∧
      recordKey ":name" = "http://grel.org/vocabulary#name" ∧
      localName "http://grel.org/vocabulary#name" = "name" := by
  refine ⟨rfl, ?_, ?_, rfl, ?_, ?_⟩ <;> decide +kernel

end ResultGraph

end LinkedData
