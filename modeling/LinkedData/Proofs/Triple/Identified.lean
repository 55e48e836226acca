import LinkedData.Proofs.Property

/-!
# Minted identifiers written back

Encoding mints an identifier for each node that has none, or the null, and reports them. Put into
those nodes as their `@id` (`Value.identify`), they reproduce the statements: the same triples in
the same order and the same root, and nothing is minted (`Encoded.identified_again`), whatever
allocator is used the second time.

The induction follows the walk over the value. `Repeats` is what it carries along: how many
identifiers a part of the walk mints, and that the part can be done again with them.
-/

namespace LinkedData

/-! ## Writing back -/

/-- Does the node need an identifier? It does if it has none, or the null. -/
def isUnidentified (entries : Node) : Bool :=
  match identifier? entries with
  | none | some .null => true
  | _ => false

/-- The node with this identifier. -/
def withIdentifier (r : Reference) (entries : Node) : Node :=
  Fields.set Vocabulary.idKey (.reference r) entries

namespace Value

mutual

/-- Put identifiers into the nodes that need one, each node before those nested in it, keys and
list elements in order. What is left over is returned too. -/
def identify : Value → List Reference → Value × List Reference
  | .node entries, ids =>
    match isUnidentified entries, ids with
    | true, r :: others =>
      let below := identifyEntries entries others
      (.node (withIdentifier r below.1), below.2)
    | _, _ =>
      let below := identifyEntries entries ids
      (.node below.1, below.2)
  | .list items, ids =>
    let below := identifyItems items ids
    (.list below.1, below.2)
  | scalar, ids => (scalar, ids)

/-- Put identifiers into the elements of a list, in order. -/
def identifyItems : List Value → List Reference → List Value × List Reference
  | [], ids => ([], ids)
  | item :: rest, ids =>
    let first := identify item ids
    let others := identifyItems rest first.2
    (first.1 :: others.1, others.2)

/-- Put identifiers into the properties of a node, in order. -/
def identifyEntries :
    List (String × Value) → List Reference → List (String × Value) × List Reference
  | [], ids => ([], ids)
  | (key, value) :: rest, ids =>
    if key = Vocabulary.idKey then
      let others := identifyEntries rest ids
      ((key, value) :: others.1, others.2)
    else
      let first := identify value ids
      let others := identifyEntries rest first.2
      ((key, first.1) :: others.1, others.2)

end

theorem identify_node_cons {entries : Node} (h : isUnidentified entries = true) (r : Reference)
    (others : List Reference) :
    (Value.node entries).identify (r :: others) =
      (.node (withIdentifier r (identifyEntries entries others).1),
        (identifyEntries entries others).2) := by
  simp only [identify, h]

theorem identify_node_of_identified {entries : Node} (h : isUnidentified entries = false)
    (ids : List Reference) :
    (Value.node entries).identify ids =
      (.node (identifyEntries entries ids).1, (identifyEntries entries ids).2) := by
  simp only [identify, h]

mutual

/-- A value without any node needs no identifier. -/
theorem identify_of_not_containsNode : ∀ {v : Value}, v.containsNode = false →
    v.preorder = [] ∧ ∀ ids, v.identify ids = (v, ids)
  | .node _, h => by cases h
  | .list items, h => by
    obtain ⟨hnone, hsame⟩ := identifyItems_of_not_containsNode h
    refine ⟨hnone, fun ids => ?_⟩
    rw [identify, hsame]
  | .null, _ | .boolean _, _ | .integer _, _ | .float _, _ | .string _, _ | .timestamp _, _
  | .reference _, _ | .term _, _ | .iri _, _ | .wildcard _, _ | .custom _ _, _ =>
    ⟨rfl, fun _ => rfl⟩

theorem identifyItems_of_not_containsNode : ∀ {items : List Value},
    anyContainsNode items = false →
      preorderItems items = [] ∧ ∀ ids, identifyItems items ids = (items, ids)
  | [], _ => ⟨rfl, fun _ => rfl⟩
  | item :: rest, h => by
    rw [anyContainsNode, Bool.or_eq_false_iff] at h
    obtain ⟨hitem, hitemSame⟩ := identify_of_not_containsNode h.1
    obtain ⟨hrest, hrestSame⟩ := identifyItems_of_not_containsNode h.2
    refine ⟨?_, fun ids => ?_⟩
    · rw [preorderItems, hitem, hrest]
      rfl
    · rw [identifyItems, hitemSame, hrestSame]

end

/-- A node stays a node. -/
theorem exists_identify_node (entries : Node) (ids : List Reference) :
    ∃ given, ((Value.node entries).identify ids).1 = .node given := by
  rw [identify.eq_def]
  dsimp only
  split
  · exact ⟨_, rfl⟩
  · exact ⟨_, rfl⟩

mutual

theorem containsNode_identify : ∀ (v : Value) (ids : List Reference),
    (v.identify ids).1.containsNode = v.containsNode
  | .node entries, ids => by
    obtain ⟨given, hgiven⟩ := exists_identify_node entries ids
    rw [hgiven]
    rfl
  | .list items, ids => by
    rw [identify, containsNode, containsNode, anyContainsNode_identifyItems items ids]
  | .null, _ | .boolean _, _ | .integer _, _ | .float _, _ | .string _, _ | .timestamp _, _
  | .reference _, _ | .term _, _ | .iri _, _ | .wildcard _, _ | .custom _ _, _ => rfl

theorem anyContainsNode_identifyItems : ∀ (items : List Value) (ids : List Reference),
    anyContainsNode (identifyItems items ids).1 = anyContainsNode items
  | [], _ => rfl
  | item :: rest, ids => by
    rw [identifyItems, anyContainsNode, anyContainsNode, containsNode_identify item ids,
      anyContainsNode_identifyItems rest]

end

/-- The identifier of a node is not one of its properties. -/
theorem get?_identifyEntries (entries : Node) (ids : List Reference) :
    Fields.get? Vocabulary.idKey (identifyEntries entries ids).1 =
      Fields.get? Vocabulary.idKey entries := by
  induction entries generalizing ids with
  | nil => rw [identifyEntries]
  | cons entry rest ih =>
    obtain ⟨key, value⟩ := entry
    rw [identifyEntries]
    split
    · rename_i hid
      rw [Fields.get?, Fields.get?, if_pos hid, if_pos hid]
    · rename_i hid
      rw [Fields.get?, Fields.get?, if_neg hid, if_neg hid, ih]

end Value

/-! ## Encoding what was written back -/

namespace Triple

open Value

/-- The properties of a node are encoded without regard to its identifier. -/
theorem encodeEntries_withIdentifier (codec : Codec) (subject : String) (r : Reference)
    (entries : Node) :
    encodeEntries codec subject (withIdentifier r entries) =
      encodeEntries codec subject entries := by
  induction entries with
  | nil => exact encodeEntries_id codec subject (.reference r) []
  | cons entry rest ih =>
    obtain ⟨key, value⟩ := entry
    rw [withIdentifier, Fields.set]
    split
    · rename_i hid
      rw [hid, encodeEntries_id, encodeEntries_id]
    · rename_i hid
      rw [encodeEntries_cons codec subject hid, encodeEntries_cons codec subject hid]
      rw [withIdentifier] at ih
      rw [ih]

/-- A subject is minted for a node that needs an identifier, and is that of the identifier; any
other subject needs no minting. -/
theorem subjectOf_cases {entries : Node} {m m' : Mint} {subject : String}
    (h : Yields (subjectOf (Fields.get? Vocabulary.idKey entries)) m subject m') :
    (isUnidentified entries = true ∧ ∃ r, m'.minted = m.minted ++ [r] ∧
      subject = Literal.bracketed r.locator) ∨
    (isUnidentified entries = false ∧ m' = m ∧
      ∀ n, Yields (subjectOf (Fields.get? Vocabulary.idKey entries)) n subject n) := by
  rw [isUnidentified, identifier?]
  rcases yields_subjectOf_iff.1 h with ⟨hid, r, hfresh, rfl⟩ | ⟨v, hid, hv, rfl⟩
  · obtain ⟨rfl, rfl⟩ := Yields.fresh_iff.1 hfresh
    refine .inl ⟨?_, _, rfl, rfl⟩
    rcases hid with hid | hid
    · rw [hid]
    · rw [hid]
  · refine .inr ⟨?_, rfl, fun _ => yields_subjectOf_iff.2 (.inr ⟨v, hid, hv, rfl⟩)⟩
    rw [hid]
    cases hv with
    | _ => rfl

section

variable {α β α' β' : Type}

/-- Two parts one after the other succeed when each of them does. -/
theorem yields_both_iff {x : Minting α} {y : Minting α'} {m m' : Mint} {a : α} {a' : α'} :
    Yields (do return (← x, ← y)) m (a, a') m' ↔ ∃ m₁, Yields x m a m₁ ∧ Yields y m₁ a' m' := by
  constructor
  · intro h
    obtain ⟨b, m₁, hx, h⟩ := Yields.bind_iff.1 h
    obtain ⟨b', m₂, hy, h⟩ := Yields.bind_iff.1 h
    obtain ⟨heq, rfl⟩ := Yields.pure_iff.1 h
    obtain ⟨rfl, rfl⟩ := Prod.mk.inj heq
    exact ⟨m₁, hx, hy⟩
  · rintro ⟨m₁, hx, hy⟩
    exact Yields.bind_iff.2
      ⟨a, m₁, hx, Yields.bind_iff.2 ⟨a', m', hy, Yields.pure_iff.2 ⟨rfl, rfl⟩⟩⟩

/-- A part of the walk, over these nodes, minted one identifier for each of them that needs one.
With these identifiers put in, it has the same result and mints nothing. -/
def Repeats (nodes : List Node) (m m' : Mint) (give : List Reference → β × List Reference)
    (walk : β → Minting α) (result : α) : Prop :=
  ∃ ids, m'.minted = m.minted ++ ids ∧ ids.length = nodes.countP isUnidentified ∧
    ∀ rest, ∃ given, give (ids ++ rest) = (given, rest) ∧ ∀ n, Yields (walk given) n result n

theorem Repeats.nothing {m : Mint} {give : List Reference → β × List Reference} {given : β}
    {walk : β → Minting α} {result : α} (hgive : ∀ ids, give ids = (given, ids))
    (h : ∀ n, Yields (walk given) n result n) : Repeats [] m m give walk result :=
  ⟨[], (List.append_nil _).symm, rfl, fun rest => ⟨given, hgive rest, h⟩⟩

/-- What is put in and walked can be seen as part of something else. -/
theorem Repeats.map {nodes : List Node} {m m' : Mint} {give : List Reference → β × List Reference}
    {walk : β → Minting α} {result : α} (h : Repeats nodes m m' give walk result)
    {give' : List Reference → β' × List Reference} {walk' : β' → Minting α'} {result' : α'}
    (f : β → β') (hgive : ∀ ids, give' ids = (f (give ids).1, (give ids).2))
    (hwalk : ∀ ids n, Yields (walk (give ids).1) n result n →
      Yields (walk' (f (give ids).1)) n result' n) :
    Repeats nodes m m' give' walk' result' := by
  obtain ⟨ids, hminted, hlength, hagain⟩ := h
  refine ⟨ids, hminted, hlength, fun rest => ?_⟩
  obtain ⟨given, hgiven, hyields⟩ := hagain rest
  refine ⟨f given, ?_, fun n => ?_⟩
  · rw [hgive, hgiven]
  · have hsame := hwalk (ids ++ rest) n
    rw [hgiven] at hsame
    exact hsame (hyields n)

/-- One part after the other. -/
theorem Repeats.both {nodes others : List Node} {m m₁ m' : Mint}
    {give : List Reference → β × List Reference} {walk : β → Minting α} {result : α}
    (h : Repeats nodes m m₁ give walk result)
    {give' : List Reference → β' × List Reference} {walk' : β' → Minting α'} {result' : α'}
    (h' : Repeats others m₁ m' give' walk' result') :
    Repeats (nodes ++ others) m m'
      (fun ids => (((give ids).1, (give' (give ids).2).1), (give' (give ids).2).2))
      (fun given => do return (← walk given.1, ← walk' given.2)) (result, result') := by
  obtain ⟨ids, hminted, hlength, hagain⟩ := h
  obtain ⟨ids', hminted', hlength', hagain'⟩ := h'
  refine ⟨ids ++ ids', ?_, ?_, fun rest => ?_⟩
  · rw [hminted', hminted, List.append_assoc]
  · rw [List.length_append, hlength, hlength', List.countP_append]
  · obtain ⟨given, hgiven, hyields⟩ := hagain (ids' ++ rest)
    obtain ⟨given', hgiven', hyields'⟩ := hagain' rest
    refine ⟨(given, given'), ?_, fun n => ?_⟩
    · simp only [List.append_assoc, hgiven, hgiven']
    · exact yields_both_iff.2 ⟨n, hyields n, hyields' n⟩

end

mutual

/-- An object can be encoded again with what was minted. -/
theorem encodeObject_repeats {codec : Codec} {key : String} :
    ∀ (v : Value) ⦃m m' : Mint⦄ ⦃r : List Triple × String⦄,
      Yields (encodeObject codec key v) m r m' →
        Repeats v.preorder m m' v.identify (encodeObject codec key) r
  | .node entries => by
    intro m m' r h
    obtain ⟨subject, emitted, m₁, hsubject, hemitted, rfl⟩ := yields_encodeNode_iff.1 h
    obtain ⟨ids, hminted, hlength, hagain⟩ := encodeEntries_repeats entries hemitted
    rcases subjectOf_cases hsubject with ⟨hneeds, r, hr, rfl⟩ | ⟨hneeds, rfl, hsame⟩
    · -- the first identifier is the node's own
      refine ⟨r :: ids, ?_, ?_, fun rest => ?_⟩
      · rw [hminted, hr, List.append_assoc, List.singleton_append]
      · rw [preorder, List.countP_cons_of_pos hneeds, List.length_cons, hlength]
      · obtain ⟨given, hgiven, hyields⟩ := hagain rest
        refine ⟨.node (withIdentifier r given), ?_, fun n => ?_⟩
        · rw [List.cons_append, identify_node_cons hneeds, hgiven]
        · refine yields_encodeNode_iff.2 ⟨_, emitted, n, ?_, ?_, rfl⟩
          · rw [identifier?, withIdentifier, Fields.get?_set, if_pos rfl]
            exact Yields.pure_iff.2 ⟨rfl, rfl⟩
          · rw [encodeEntries_withIdentifier]
            exact hyields n
    · have hcount : ¬ isUnidentified entries = true := by
        rw [hneeds]
        exact Bool.false_ne_true
      refine ⟨ids, hminted, ?_, fun rest => ?_⟩
      · rw [preorder, List.countP_cons_of_neg hcount, hlength]
      · obtain ⟨given, hgiven, hyields⟩ := hagain rest
        have hid := get?_identifyEntries entries (ids ++ rest)
        rw [hgiven] at hid
        refine ⟨.node given, ?_, fun n => ?_⟩
        · rw [identify_node_of_identified hneeds, hgiven]
        · refine yields_encodeNode_iff.2 ⟨subject, emitted, n, ?_, hyields n, rfl⟩
          rw [identifier?, hid]
          exact hsame n
  | .list _ => fun _ _ _ h => (Yields.throw_iff.1 h).elim
  | .null | .boolean _ | .integer _ | .float _ | .string _ | .timestamp _ | .reference _ | .term _
  | .iri _ | .wildcard _ | .custom _ _ => by
    intro m m' r h
    obtain ⟨object, m₁, hobject, h⟩ := Yields.bind_iff.1 h
    obtain ⟨rfl, rfl⟩ := Yields.pure_iff.1 h
    obtain ⟨hok, rfl⟩ := Yields.minting_lift_iff.1 hobject
    exact Repeats.nothing (fun _ => rfl) fun n => Yields.bind_iff.2 ⟨object, n,
      Yields.minting_lift_iff.2 ⟨hok, rfl⟩, Yields.pure_iff.2 ⟨rfl, rfl⟩⟩
termination_by v => (sizeOf v, 0)

theorem encodeItems_repeats {codec : Codec} {subject predicate key : String} :
    ∀ (items : List Value) ⦃m m' : Mint⦄ ⦃emitted : Emitted⦄,
      Yields (encodeItems codec subject predicate key items) m emitted m' →
        Repeats (preorderItems items) m m' (identifyItems items)
          (encodeItems codec subject predicate key) emitted
  | [] => by
    intro m m' emitted h
    obtain ⟨rfl, rfl⟩ := Yields.pure_iff.1 h
    exact Repeats.nothing (fun _ => rfl) fun n => Yields.pure_iff.2 ⟨rfl, rfl⟩
  | item :: rest => by
    intro m m' emitted h
    obtain ⟨before, object, after, m₁, hitem, hrest, rfl⟩ := yields_encodeItems_cons_iff.1 h
    refine ((encodeObject_repeats item hitem).both (encodeItems_repeats rest hrest)).map
      (fun given => given.1 :: given.2) (fun ids => by rw [identifyItems]) ?_
    intro ids n hboth
    obtain ⟨n₁, hfirst, hothers⟩ := yields_both_iff.1 hboth
    exact yields_encodeItems_cons_iff.2 ⟨before, object, after, n₁, hfirst, hothers, rfl⟩
termination_by items => (sizeOf items, 0)

theorem encodeProperty_repeats {codec : Codec} {subject predicate key : String} :
    ∀ (v : Value) ⦃m m' : Mint⦄ ⦃emitted : Emitted⦄,
      Yields (encodeProperty codec subject predicate key v) m emitted m' →
        Repeats v.preorder m m' v.identify (encodeProperty codec subject predicate key) emitted
  | v => by
    intro m m' emitted h
    rw [encodeProperty.eq_def] at h
    split at h
    · rename_i items
      exact (encodeItems_repeats items h).map Value.list (fun ids => by rw [identify])
        fun _ _ hitems => hitems
    · obtain ⟨⟨before, object⟩, m₁, hobject, h⟩ := Yields.bind_iff.1 h
      obtain ⟨rfl, rfl⟩ := Yields.pure_iff.1 h
      refine (encodeObject_repeats v hobject).map id (fun ids => rfl) fun ids n hgiven => ?_
      -- an object is no list, so it is walked as before
      have hsingle : ∀ items, (v.identify ids).1 ≠ .list items := by
        intro items hlist
        rw [hlist] at hgiven
        exact Yields.throw_iff.1 hgiven
      rw [id, encodeProperty_single codec subject predicate key hsingle]
      exact Yields.bind_iff.2 ⟨_, n, hgiven, Yields.pure_iff.2 ⟨rfl, rfl⟩⟩
termination_by v => (sizeOf v, 1)

theorem encodeEntries_repeats {codec : Codec} {subject : String} :
    ∀ (entries : List (String × Value)) ⦃m m' : Mint⦄ ⦃emitted : Emitted⦄,
      Yields (encodeEntries codec subject entries) m emitted m' →
        Repeats (preorderEntries entries) m m' (identifyEntries entries)
          (encodeEntries codec subject) emitted
  | [] => by
    intro m m' emitted h
    obtain ⟨rfl, rfl⟩ := Yields.pure_iff.1 h
    exact Repeats.nothing (fun _ => rfl) fun n => Yields.pure_iff.2 ⟨rfl, rfl⟩
  | (key, value) :: rest => by
    intro m m' emitted h
    by_cases hid : key = Vocabulary.idKey
    · subst hid
      rw [encodeEntries_id] at h
      rw [preorderEntries, if_pos rfl]
      refine (encodeEntries_repeats rest h).map ((Vocabulary.idKey, value) :: ·)
        (fun ids => by rw [identifyEntries, if_pos rfl]) fun ids n hgiven => ?_
      rw [encodeEntries_id]
      exact hgiven
    · obtain ⟨predicate, here, after, m₁, hok, hhere, hrest, rfl⟩ :=
        (yields_encodeEntries_cons_iff hid).1 h
      rw [preorderEntries, if_neg hid]
      refine ((encodeProperty_repeats value hhere).both (encodeEntries_repeats rest hrest)).map
        (fun given => (key, given.1) :: given.2)
        (fun ids => by rw [identifyEntries, if_neg hid]) fun ids n hboth => ?_
      obtain ⟨n₁, hfirst, hothers⟩ := yields_both_iff.1 hboth
      exact (yields_encodeEntries_cons_iff hid).2
        ⟨predicate, here, after, n₁, hok, hfirst, hothers, rfl⟩
termination_by entries => (sizeOf entries, 0)

end

theorem encodeNodes_repeats {codec : Codec} : ∀ (items : List Value) ⦃m m' : Mint⦄
    ⦃triples : List Triple⦄, Yields (encodeNodes codec items) m triples m' →
      Repeats (preorderItems items) m m' (identifyItems items) (encodeNodes codec) triples
  | [] => by
    intro m m' triples h
    obtain ⟨rfl, rfl⟩ := Yields.pure_iff.1 h
    exact Repeats.nothing (fun _ => rfl) fun n => Yields.pure_iff.2 ⟨rfl, rfl⟩
  | .node entries :: rest => by
    intro m m' triples h
    obtain ⟨⟨here, subject⟩, m₁, hnode, h⟩ := Yields.bind_iff.1 h
    obtain ⟨others, m₂, hrest, h⟩ := Yields.bind_iff.1 h
    obtain ⟨rfl, rfl⟩ := Yields.pure_iff.1 h
    refine ((encodeObject_repeats (.node entries) hnode).both (encodeNodes_repeats rest hrest)).map
      (fun given => given.1 :: given.2) (fun ids => by rw [identifyItems]) ?_
    intro ids n hboth
    obtain ⟨n₁, hfirst, hothers⟩ := yields_both_iff.1 hboth
    obtain ⟨given, hgiven⟩ := exists_identify_node entries ids
    dsimp only at hfirst ⊢
    rw [hgiven] at hfirst ⊢
    exact Yields.bind_iff.2 ⟨_, n₁, hfirst, Yields.bind_iff.2 ⟨_, _, hothers,
      Yields.pure_iff.2 ⟨rfl, rfl⟩⟩⟩
  | .list _ :: _ | .null :: _ | .boolean _ :: _ | .integer _ :: _ | .float _ :: _ | .string _ :: _
  | .timestamp _ :: _ | .reference _ :: _ | .term _ :: _ | .iri _ :: _ | .wildcard _ :: _
  | .custom _ _ :: _ => fun _ _ _ h => (Yields.throw_iff.1 h).elim

end Triple

/-! ## Whole values -/

namespace Encoded

theorem build_repeats {codec : Codec} {value : Value} {m m' : Mint}
    {result : List Triple × Option String} (h : Yields (build codec value) m result m') :
    Triple.Repeats value.preorder m m' value.identify (build codec) result := by
  cases value with
  | node entries =>
    obtain ⟨⟨triples, subject⟩, m₁, hnode, h⟩ := Yields.bind_iff.1 h
    obtain ⟨rfl, rfl⟩ := Yields.pure_iff.1 h
    refine (Triple.encodeObject_repeats (.node entries) hnode).map id (fun _ => rfl) ?_
    intro ids n hgiven
    obtain ⟨given, hnode⟩ := Value.exists_identify_node entries ids
    rw [hnode] at hgiven
    rw [id, hnode]
    exact Yields.bind_iff.2 ⟨_, n, hgiven, Yields.pure_iff.2 ⟨rfl, rfl⟩⟩
  | list items =>
    rw [build] at h
    rcases hnodes : (Value.list items).containsNode with _ | _
    · rw [hnodes, if_neg Bool.false_ne_true] at h
      obtain ⟨triples, m₁, hstatements, h⟩ := Yields.bind_iff.1 h
      obtain ⟨rfl, rfl⟩ := Yields.pure_iff.1 h
      obtain ⟨hok, rfl⟩ := Yields.minting_lift_iff.1 hstatements
      obtain ⟨hnone, hsame⟩ := Value.identify_of_not_containsNode hnodes
      rw [hnone]
      refine Triple.Repeats.nothing hsame fun n => ?_
      rw [build, hnodes, if_neg Bool.false_ne_true]
      exact Yields.bind_iff.2 ⟨triples, n, Yields.minting_lift_iff.2 ⟨hok, rfl⟩,
        Yields.pure_iff.2 ⟨rfl, rfl⟩⟩
    · rw [hnodes, if_pos rfl] at h
      obtain ⟨triples, m₁, hitems, h⟩ := Yields.bind_iff.1 h
      obtain ⟨rfl, rfl⟩ := Yields.pure_iff.1 h
      refine (Triple.encodeNodes_repeats items hitems).map Value.list
        (fun ids => by rw [Value.identify]) fun ids n hgiven => ?_
      have hstill : (Value.list (Value.identifyItems items ids).1).containsNode = true := by
        rw [← hnodes, ← Value.containsNode_identify (.list items) ids, Value.identify]
      rw [build, hstill, if_pos rfl]
      exact Yields.bind_iff.2 ⟨triples, n, hgiven, Yields.pure_iff.2 ⟨rfl, rfl⟩⟩
  | _ => exact (Yields.throw_iff.1 h).elim

/-- **Minted identifiers written back reproduce the statements.** A value that was encoded had one
identifier minted for each node that needed one. With these put into the nodes, in order, the value
is encoded to the same triples and the same root, and the allocator, whichever it is, is left as
it was. -/
theorem identified_again {codec : Codec} {value : Value} {allocator : IdAllocator}
    {encoded : Encoded} (h : (ofValue codec value allocator).1 = .ok encoded) :
    encoded.allocated.length = value.preorder.countP isUnidentified ∧
      (value.identify encoded.allocated).2 = [] ∧
      ∀ other, ofValue codec (value.identify encoded.allocated).1 other =
        (.ok ⟨encoded.triples, encoded.root, []⟩, other) := by
  have hrun := ofValue_eq_iff.1 (Prod.ext h rfl)
  obtain ⟨ids, hminted, hlength, hagain⟩ := build_repeats hrun
  obtain rfl : encoded.allocated = ids := hminted
  obtain ⟨given, hgiven, hyields⟩ := hagain []
  rw [List.append_nil] at hgiven
  rw [hgiven]
  exact ⟨hlength, rfl, fun other => ofValue_eq_iff.2 (hyields ⟨other, []⟩)⟩

/-- Two nodes, of which the second holds three: one is null, one has an identifier behind its
other property, and one is the last of a list. -/
def gathering : Value :=
  .list [.node [("name", .string "Ann"), ("@id", .string "ann")],
    .node [("guests", .list [.node [("@id", .null), ("name", .string "Bob")], .integer 3,
      .node [("knows", .node [("name", .null), ("@id", .reference ⟨"cy", by decide⟩)])]])]]

theorem identified_again_gathering :
    ∃ encoded, (ofValue .empty gathering (.countingFrom 7)).1 = .ok encoded ∧
      encoded.allocated.length = 3 ∧
      gathering.preorder.countP isUnidentified = 3 ∧
      ofValue .empty (gathering.identify encoded.allocated).1 (.countingFrom 8) =
        (.ok ⟨encoded.triples, none, []⟩, .countingFrom 8) := by
  obtain ⟨encoded, hencoded, hroot⟩ : ∃ encoded,
      (ofValue .empty gathering (.countingFrom 7)).1 = .ok encoded ∧ encoded.root = none :=
    ⟨_, rfl, rfl⟩
  have hcount : gathering.preorder.countP isUnidentified = 3 := by decide
  obtain ⟨hlength, -, hagain⟩ := identified_again hencoded
  refine ⟨encoded, hencoded, hlength.trans hcount, hcount, ?_⟩
  rw [hagain, hroot]

end Encoded

end LinkedData
