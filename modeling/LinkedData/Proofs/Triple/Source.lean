import LinkedData.Proofs.Property
import LinkedData.Proofs.Value.Leaves

/-!
# Where the tokens of statements come from

Encoding invents nothing but identifiers: every token of every triple is the wire text of a key or
of a leaf of the value, or the locator of an identifier (`Encoded.tokens_sourced`).
-/

namespace LinkedData

open Literal

/-- The token is the wire text of one of the keys or leaves, or the locator of an identifier. -/
inductive Sourced (codec : Codec) (keys : List String) (leaves : List Value) : String → Prop where
  /-- a key -/
  | key {key token : String} : key ∈ keys → Triple.encodeKey key = .ok token →
      Sourced codec keys leaves token
  /-- a leaf -/
  | leaf {leaf : Value} {token : String} : leaf ∈ leaves → codec.encodeLiteral leaf = .ok token →
      Sourced codec keys leaves token
  /-- an identifier, whether it was there or was minted -/
  | identifier (r : Reference) : Sourced codec keys leaves (bracketed r.locator)

namespace Triple

/-- All three tokens have the property. -/
structure All (p : String → Prop) (t : Triple) : Prop where
  /-- the subject has it -/
  subject : p t.subject
  /-- the predicate has it -/
  predicate : p t.predicate
  /-- the object has it -/
  object : p t.object

theorem All.imp {p q : String → Prop} (h : ∀ token, p token → q token) {t : Triple}
    (ht : t.All p) : t.All q :=
  ⟨h _ ht.subject, h _ ht.predicate, h _ ht.object⟩

open Value

section

variable {codec : Codec} {keys : List String} {leaves : List Value}

/-- An identifier that is there is a leaf of its node. -/
theorem sourced_subjectOf {entries : Node} (hleaves : leavesOfEntries entries ⊆ leaves)
    {m m' : Mint} {subject : String}
    (h : Yields (subjectOf (Fields.get? Vocabulary.idKey entries)) m subject m') :
    Sourced codec keys leaves subject := by
  rcases yields_subjectOf_iff.1 h with ⟨-, r, -, rfl⟩ | ⟨v, hid, hv, -⟩
  · exact .identifier r
  · cases hv with
    | reference r => exact .identifier r
    | name _ => exact .identifier _
    | iri locator =>
      have hentry := leaves_subset_of_mem_entries (Fields.mem_of_get? hid)
      exact .leaf (hleaves (hentry List.mem_cons_self)) rfl

mutual

theorem encodeObject_sourced {key : String} : ∀ {v : Value}, v.keys ⊆ keys → v.leaves ⊆ leaves →
    ∀ ⦃m m' : Mint⦄ ⦃r : List Triple × String⦄, Yields (encodeObject codec key v) m r m' →
      (∀ t ∈ r.1, t.All (Sourced codec keys leaves)) ∧ Sourced codec keys leaves r.2
  | .node entries, hkeys, hleaves => by
    intro m m' r h
    obtain ⟨subject, emitted, m₁, hsubject, hemitted, rfl⟩ := yields_encodeNode_iff.1 h
    have hsourced : Sourced codec keys leaves subject := sourced_subjectOf hleaves hsubject
    obtain ⟨hnested, hown⟩ := encodeEntries_sourced hsourced hkeys hleaves hemitted
    exact ⟨List.forall_mem_append.2 ⟨hnested, hown⟩, hsourced⟩
  | .list _, _, _ => fun _ _ _ h => (Yields.throw_iff.1 h).elim
  | .null, _, hleaves | .boolean _, _, hleaves | .integer _, _, hleaves | .float _, _, hleaves
  | .string _, _, hleaves | .timestamp _, _, hleaves | .reference _, _, hleaves
  | .term _, _, hleaves | .iri _, _, hleaves | .wildcard _, _, hleaves
  | .custom _ _, _, hleaves => by
    intro m m' r h
    obtain ⟨object, m₁, hobject, h⟩ := Yields.bind_iff.1 h
    obtain ⟨rfl, rfl⟩ := Yields.pure_iff.1 h
    obtain ⟨hok, -⟩ := Yields.minting_lift_iff.1 hobject
    exact ⟨nofun, .leaf (hleaves List.mem_cons_self) hok⟩
termination_by v => (sizeOf v, 0)

theorem encodeItems_sourced {subject predicate key : String}
    (hsubject : Sourced codec keys leaves subject)
    (hpredicate : Sourced codec keys leaves predicate) :
    ∀ {items : List Value}, keysOfItems items ⊆ keys → leavesOfItems items ⊆ leaves →
      ∀ ⦃m m' : Mint⦄ ⦃emitted : Emitted⦄,
        Yields (encodeItems codec subject predicate key items) m emitted m' →
          (∀ t ∈ emitted.nested, t.All (Sourced codec keys leaves)) ∧
            ∀ t ∈ emitted.own, t.All (Sourced codec keys leaves)
  | [], _, _ => by
    intro m m' emitted h
    obtain ⟨rfl, rfl⟩ := Yields.pure_iff.1 h
    exact ⟨nofun, nofun⟩
  | item :: rest, hkeys, hleaves => by
    intro m m' emitted h
    rw [keysOfItems, List.append_subset] at hkeys
    rw [leavesOfItems, List.append_subset] at hleaves
    obtain ⟨before, object, after, m₁, hitem, hrest, rfl⟩ := yields_encodeItems_cons_iff.1 h
    obtain ⟨hbefore, hobject⟩ := encodeObject_sourced hkeys.1 hleaves.1 hitem
    obtain ⟨hnested, hown⟩ := encodeItems_sourced hsubject hpredicate hkeys.2 hleaves.2 hrest
    exact ⟨List.forall_mem_append.2 ⟨hbefore, hnested⟩,
      List.forall_mem_cons.2 ⟨⟨hsubject, hpredicate, hobject⟩, hown⟩⟩
termination_by items => (sizeOf items, 0)

theorem encodeProperty_sourced {subject predicate key : String}
    (hsubject : Sourced codec keys leaves subject)
    (hpredicate : Sourced codec keys leaves predicate) :
    ∀ {v : Value}, v.keys ⊆ keys → v.leaves ⊆ leaves → ∀ ⦃m m' : Mint⦄ ⦃emitted : Emitted⦄,
      Yields (encodeProperty codec subject predicate key v) m emitted m' →
        (∀ t ∈ emitted.nested, t.All (Sourced codec keys leaves)) ∧
          ∀ t ∈ emitted.own, t.All (Sourced codec keys leaves)
  | v, hkeys, hleaves => by
    intro m m' emitted h
    rw [encodeProperty.eq_def] at h
    split at h
    · exact encodeItems_sourced hsubject hpredicate hkeys hleaves h
    · obtain ⟨⟨before, object⟩, m₁, hobject, h⟩ := Yields.bind_iff.1 h
      obtain ⟨rfl, rfl⟩ := Yields.pure_iff.1 h
      obtain ⟨hbefore, hobject⟩ := encodeObject_sourced hkeys hleaves hobject
      exact ⟨hbefore, List.forall_mem_singleton.2 ⟨hsubject, hpredicate, hobject⟩⟩
termination_by v => (sizeOf v, 1)

theorem encodeEntries_sourced {subject : String} (hsubject : Sourced codec keys leaves subject) :
    ∀ {entries : List (String × Value)}, keysOfEntries entries ⊆ keys →
      leavesOfEntries entries ⊆ leaves → ∀ ⦃m m' : Mint⦄ ⦃emitted : Emitted⦄,
        Yields (encodeEntries codec subject entries) m emitted m' →
          (∀ t ∈ emitted.nested, t.All (Sourced codec keys leaves)) ∧
            ∀ t ∈ emitted.own, t.All (Sourced codec keys leaves)
  | [], _, _ => by
    intro m m' emitted h
    obtain ⟨rfl, rfl⟩ := Yields.pure_iff.1 h
    exact ⟨nofun, nofun⟩
  | (key, value) :: rest, hkeys, hleaves => by
    intro m m' emitted h
    rw [keysOfEntries, List.cons_subset, List.append_subset] at hkeys
    rw [leavesOfEntries, List.append_subset] at hleaves
    by_cases hid : key = Vocabulary.idKey
    · rw [hid, encodeEntries_id] at h
      exact encodeEntries_sourced hsubject hkeys.2.2 hleaves.2 h
    · obtain ⟨predicate, here, after, m₁, hkey, hhere, hrest, rfl⟩ :=
        (yields_encodeEntries_cons_iff hid).1 h
      have hpredicate : Sourced codec keys leaves predicate := .key hkeys.1 hkey
      obtain ⟨hnested, hown⟩ := encodeProperty_sourced hsubject hpredicate hkeys.2.1 hleaves.1 hhere
      obtain ⟨hothers, hothersOwn⟩ := encodeEntries_sourced hsubject hkeys.2.2 hleaves.2 hrest
      exact ⟨List.forall_mem_append.2 ⟨hnested, hothers⟩,
        List.forall_mem_append.2 ⟨hown, hothersOwn⟩⟩
termination_by entries => (sizeOf entries, 0)

end

theorem encodeNodes_sourced : ∀ {items : List Value}, keysOfItems items ⊆ keys →
    leavesOfItems items ⊆ leaves → ∀ ⦃m m' : Mint⦄ ⦃triples : List Triple⦄,
      Yields (encodeNodes codec items) m triples m' →
        ∀ t ∈ triples, t.All (Sourced codec keys leaves)
  | [], _, _ => by
    intro m m' triples h
    obtain ⟨rfl, rfl⟩ := Yields.pure_iff.1 h
    exact nofun
  | .node entries :: rest, hkeys, hleaves => by
    intro m m' triples h
    rw [keysOfItems, List.append_subset] at hkeys
    rw [leavesOfItems, List.append_subset] at hleaves
    obtain ⟨⟨here, subject⟩, m₁, hnode, h⟩ := Yields.bind_iff.1 h
    obtain ⟨others, m₂, hrest, h⟩ := Yields.bind_iff.1 h
    obtain ⟨rfl, rfl⟩ := Yields.pure_iff.1 h
    exact List.forall_mem_append.2 ⟨(encodeObject_sourced hkeys.1 hleaves.1 hnode).1,
      encodeNodes_sourced hkeys.2 hleaves.2 hrest⟩
  | .list _ :: _, _, _ | .null :: _, _, _ | .boolean _ :: _, _, _ | .integer _ :: _, _, _
  | .float _ :: _, _, _ | .string _ :: _, _, _ | .timestamp _ :: _, _, _ | .reference _ :: _, _, _
  | .term _ :: _, _, _ | .iri _ :: _, _, _ | .wildcard _ :: _, _, _ | .custom _ _ :: _, _, _ =>
    fun _ _ _ h => (Yields.throw_iff.1 h).elim

/-- What has wire text is a leaf. -/
theorem leaves_of_encodeLiteral {v : Value} {token : String}
    (h : codec.encodeLiteral v = .ok token) : v.leaves = [v] := by
  cases v with
  | node _ | list _ => cases h
  | _ => rfl

theorem statementTriples_sourced : ∀ {items : List Value}, leavesOfItems items ⊆ leaves →
    ∀ ⦃triples : List Triple⦄, statementTriples codec items = .ok triples →
      ∀ t ∈ triples, t.All (Sourced codec keys leaves)
  | s :: p :: o :: rest, hleaves => by
    intro triples h
    have hsourced : ∀ {v : Value} {token : String}, v.leaves ⊆ leaves →
        codec.encodeLiteral v = .ok token → Sourced codec keys leaves token := by
      intro v token hv hok
      rw [leaves_of_encodeLiteral hok] at hv
      exact .leaf (hv List.mem_cons_self) hok
    simp only [leavesOfItems, List.append_subset] at hleaves
    obtain ⟨hs, hp, ho, hrest⟩ := hleaves
    rw [statementTriples.eq_def] at h
    obtain ⟨subject, hsubject, h⟩ := bind_eq_ok_iff.1 h
    obtain ⟨predicate, hpredicate, h⟩ := bind_eq_ok_iff.1 h
    obtain ⟨object, hobject, h⟩ := bind_eq_ok_iff.1 h
    obtain ⟨others, hothers, h⟩ := bind_eq_ok_iff.1 h
    obtain rfl := Except.ok.inj h
    exact List.forall_mem_cons.2 ⟨⟨hsourced hs hsubject, hsourced hp hpredicate,
      hsourced ho hobject⟩, statementTriples_sourced hrest hothers⟩
  | [], _ | [_], _ | [_, _], _ => by
    intro triples h
    obtain rfl := Except.ok.inj h
    exact nofun

end

end Triple

/-- **Encoding invents nothing but identifiers.** Every token of every triple is the wire text of a
key or of a leaf of the value, or the locator of an identifier. -/
theorem Encoded.tokens_sourced {codec : Codec} {value : Value} {allocator : IdAllocator}
    {encoded : Encoded} (h : (ofValue codec value allocator).1 = .ok encoded) :
    ∀ t ∈ encoded.triples, t.All (Sourced codec value.keys value.leaves) := by
  have hrun := ofValue_eq_iff.1 (Prod.ext h rfl)
  cases value with
  | node entries =>
    obtain ⟨⟨triples, subject⟩, m, hnode, hrun⟩ := Yields.bind_iff.1 hrun
    obtain ⟨heq, -⟩ := Yields.pure_iff.1 hrun
    obtain ⟨rfl, -⟩ := Prod.mk.inj heq
    exact (Triple.encodeObject_sourced (List.Subset.refl _) (List.Subset.refl _) hnode).1
  | list items =>
    rw [build] at hrun
    split at hrun
    · obtain ⟨triples, m, hitems, hrun⟩ := Yields.bind_iff.1 hrun
      obtain ⟨heq, -⟩ := Yields.pure_iff.1 hrun
      obtain ⟨rfl, -⟩ := Prod.mk.inj heq
      exact Triple.encodeNodes_sourced (List.Subset.refl _) (List.Subset.refl _) hitems
    · obtain ⟨triples, m, hstatements, hrun⟩ := Yields.bind_iff.1 hrun
      obtain ⟨heq, -⟩ := Yields.pure_iff.1 hrun
      obtain ⟨rfl, -⟩ := Prod.mk.inj heq
      obtain ⟨hok, -⟩ := Yields.minting_lift_iff.1 hstatements
      rw [Triple.ofStatements] at hok
      split at hok
      · exact Triple.statementTriples_sourced (List.Subset.refl _) hok
      · cases hok
  | _ => exact (Yields.throw_iff.1 hrun).elim

end LinkedData
