import Mathlib.Data.List.Forall2
import Mathlib.Data.List.Perm.Basic
import LinkedData.Proofs.Triple.Identified
import LinkedData.Proofs.Value.Describable

/-!
# One triple for each edge

A tree has an edge for everything that a node holds under a key other than `@id`: for the value, or
for each element of a list. `treeEdges` lists the edges of a tree, those of the trees below a node
before those of the node itself. Encoding a node gives one triple for each edge, in this order
(`Encoded.edges_children_first`): the subject is that of the node, the predicate that of the key,
and the object is a literal or the subject of the node that is held.

Subjects of nodes without an identifier are minted on the way. Which of the minted identifiers is
whose is seen once they are written back: the same triples belong to the edges of that tree.
-/

namespace LinkedData

open Literal

/-! ## The edges of a tree -/

/-- An edge: what a node holds under a key, or one element of the list there. -/
structure Edge where
  /-- the node that holds it -/
  node : Node
  /-- the key -/
  key : String
  /-- the scalar or the node that is held -/
  object : Value

/-- The edges that a node has by one property. -/
def Edge.ofProperty (entries : Node) (property : String × Value) : List Edge :=
  property.2.objects.map fun object => ⟨entries, property.1, object⟩

/-- The edges that a node has itself, by its keys in order. -/
def ownEdges (entries : Node) : List Edge :=
  (edges entries).flatMap (Edge.ofProperty entries)

/-- The edges of a tree: first those of the trees below the topmost node, one tree after the
other, and then its own. -/
def treeEdges (entries : Node) : List Edge :=
  (children entries).attach.flatMap (fun child => treeEdges child.1) ++ ownEdges entries
termination_by sizeOf entries
decreasing_by exact sizeOf_lt_of_mem_children child.2

theorem treeEdges_eq (entries : Node) :
    treeEdges entries = (children entries).flatMap treeEdges ++ ownEdges entries := by
  rw [treeEdges, List.flatMap_def, List.flatMap_def, List.attach_map_val]

/-- The edges of the tree that stands behind an edge. A scalar has none. -/
def Value.treeEdges : Value → List Edge
  | .node entries => LinkedData.treeEdges entries
  | _ => []

theorem flatMap_filterMap_node? (items : List Value) :
    (items.filterMap Value.node?).flatMap treeEdges = items.flatMap Value.treeEdges := by
  induction items with
  | nil => rfl
  | cons item rest ih =>
    rw [List.flatMap_cons, ← ih]
    cases item with
    | node entries => rfl
    | _ => rfl

theorem flatMap_children (entries : Node) : (children entries).flatMap treeEdges =
    (edges entries).flatMap fun edge => edge.2.objects.flatMap Value.treeEdges := by
  rw [children, List.flatMap_assoc]
  exact List.flatMap_congr fun edge _ => flatMap_filterMap_node? edge.2.objects

/-! ## The triple of an edge -/

/-- The subject of a node: that of its identifier, or if it needs one, of one that was minted. -/
inductive HasSubject (minted : List Reference) (entries : Node) : String → Prop where
  /-- the identifier that is there -/
  | identifier {id : Value} {token : String} (there : identifier? entries = some id)
      (identifies : Triple.Identifies id token) : HasSubject minted entries token
  /-- an identifier that was minted -/
  | minted {r : Reference} (needed : isUnidentified entries = true) (mint : r ∈ minted) :
      HasSubject minted entries (bracketed r.locator)

/-- The token of what an edge leads to. -/
inductive HasToken (codec : Codec) (minted : List Reference) : Value → String → Prop where
  /-- the subject of a node -/
  | node {entries : Node} {token : String} (subject : HasSubject minted entries token) :
      HasToken codec minted (.node entries) token
  /-- the literal of a scalar -/
  | literal {v : Value} {token : String} (encoded : codec.encodeLiteral v = .ok token) :
      HasToken codec minted v token

/-- The triple states the edge. -/
structure Edge.Stated (codec : Codec) (minted : List Reference) (edge : Edge) (t : Triple) :
    Prop where
  /-- about its node -/
  subject : HasSubject minted edge.node t.subject
  /-- under its key -/
  predicate : Triple.encodeKey edge.key = .ok t.predicate
  /-- of its object -/
  object : HasToken codec minted edge.object t.object

theorem HasSubject.mono {minted all : List Reference} {entries : Node} {token : String}
    (h : HasSubject minted entries token) (hall : minted ⊆ all) :
    HasSubject all entries token := by
  cases h with
  | identifier there identifies => exact .identifier there identifies
  | minted needed mint => exact .minted needed (hall mint)

/-- What has a token is no list. -/
theorem HasToken.ne_list {codec : Codec} {minted : List Reference} {v : Value} {token : String}
    (h : HasToken codec minted v token) (items : List Value) : v ≠ .list items := by
  rintro rfl
  cases h with
  | literal encoded => cases encoded

theorem ne_list_of_stated {codec : Codec} {minted : List Reference} {held : List Edge}
    {triples : List Triple} (h : List.Forall₂ (Edge.Stated codec minted) held triples) :
    ∀ edge ∈ held, ∀ items, edge.object ≠ .list items := by
  induction h with
  | nil => exact nofun
  | cons hstated _ ih => exact List.forall_mem_cons.2 ⟨hstated.object.ne_list, ih⟩

/-! ## Every edge once -/

theorem Value.objects_of_ne_list {v : Value} (h : ∀ items, v ≠ .list items) : v.objects = [v] := by
  cases v with
  | list items => exact absurd rfl (h items)
  | _ => rfl

/-- The nodes of what is no list are those of the tree that it is. -/
theorem Value.preorder_of_ne_list {v : Value} (h : ∀ items, v ≠ .list items) :
    v.preorder = v.node?.toList.flatMap fun entries => (Value.node entries).preorder := by
  cases v with
  | list items => exact absurd rfl (h items)
  | node entries => exact (List.flatMap_singleton ..).symm
  | _ => rfl

/-- If no list stands in a list, the edges of a tree are the own edges of all its nodes. -/
theorem treeEdges_perm (root : Node)
    (h : ∀ edge ∈ treeEdges root, ∀ items, edge.object ≠ .list items) :
    (treeEdges root).Perm ((Value.node root).preorder.flatMap ownEdges) := by
  induction root using node_induction with
  | step root ih =>
    rw [treeEdges_eq] at h ⊢
    have hown : ∀ edge ∈ edges root, ∀ object ∈ edge.2.objects, ∀ items, object ≠ .list items :=
      fun edge hedge object hobject => h ⟨root, edge.1, object⟩ <| List.mem_append_right _ <|
        List.mem_flatMap.2 ⟨edge, hedge, List.mem_map_of_mem hobject⟩
    have hbelow : Value.preorderEntries root =
        (children root).flatMap fun child => (Value.node child).preorder := by
      rw [Value.preorderEntries_eq, children, List.flatMap_assoc]
      refine List.flatMap_congr fun edge hedge => ?_
      rw [← Value.flatMap_preorder_objects, List.filterMap_eq_flatMap_toList, List.flatMap_assoc]
      exact List.flatMap_congr fun object hobject =>
        Value.preorder_of_ne_list (hown edge hedge object hobject)
    rw [Value.preorder, List.flatMap_cons, hbelow, List.flatMap_assoc]
    refine List.perm_append_comm.trans (List.Perm.append_left _ ?_)
    refine List.Perm.flatMap_left _ fun child hchild => ih child hchild fun edge hedge => ?_
    exact h edge (List.mem_append_left _ (List.mem_flatMap.2 ⟨child, hchild, hedge⟩))

/-! ## The walk -/

namespace Triple

theorem Repeats.minted_subset {α β : Type} {nodes : List Node} {m m' : Mint}
    {give : List Reference → β × List Reference} {walk : β → Minting α} {result : α}
    (h : Repeats nodes m m' give walk result) : m.minted ⊆ m'.minted := by
  obtain ⟨ids, hminted, -⟩ := h
  rw [hminted]
  exact List.subset_append_left _ _

/-- The subject of a node is that of its identifier, or of the one that was just minted. -/
theorem hasSubject_of_subjectOf {entries : Node} {m m' : Mint} {subject : String}
    (h : Yields (subjectOf (Fields.get? Vocabulary.idKey entries)) m subject m') :
    HasSubject m'.minted entries subject := by
  rcases yields_subjectOf_iff.1 h with ⟨hid, r, hfresh, rfl⟩ | ⟨v, hid, hv, rfl⟩
  · obtain ⟨rfl, rfl⟩ := Yields.fresh_iff.1 hfresh
    refine .minted ?_ (List.mem_append_right _ List.mem_cons_self)
    rw [isUnidentified, identifier?]
    rcases hid with hid | hid
    · rw [hid]
    · rw [hid]
  · exact .identifier hid hv

section

variable {codec : Codec} {minted : List Reference}

mutual

/-- What comes before the token of an object states the edges of the tree behind it. -/
theorem encodeObject_stated {key : String} : ∀ (v : Value) ⦃m m' : Mint⦄
    ⦃r : List Triple × String⦄, Yields (encodeObject codec key v) m r m' → m'.minted ⊆ minted →
      List.Forall₂ (Edge.Stated codec minted) v.treeEdges r.1 ∧ HasToken codec minted v r.2
  | .node entries => by
    intro m m' r h hminted
    obtain ⟨subject, emitted, m₁, hsubject, hemitted, rfl⟩ := yields_encodeNode_iff.1 h
    have hfirst := (encodeEntries_repeats entries hemitted).minted_subset
    have hnode : HasSubject minted entries subject :=
      (hasSubject_of_subjectOf hsubject).mono (List.Subset.trans hfirst hminted)
    obtain ⟨hnested, hown⟩ := encodeEntries_stated hnode entries hemitted hminted
    refine ⟨?_, .node hnode⟩
    rw [Value.treeEdges, treeEdges_eq, flatMap_children]
    exact List.rel_append hnested hown
  | .list _ => fun _ _ _ h => (Yields.throw_iff.1 h).elim
  | .null | .boolean _ | .integer _ | .float _ | .string _ | .timestamp _ | .reference _ | .term _
  | .iri _ | .wildcard _ | .custom _ _ => by
    intro m m' r h _
    obtain ⟨object, m₁, hobject, h⟩ := Yields.bind_iff.1 h
    obtain ⟨rfl, rfl⟩ := Yields.pure_iff.1 h
    exact ⟨.nil, .literal (Yields.minting_lift_iff.1 hobject).1⟩
termination_by v => (sizeOf v, 0)

theorem encodeItems_stated {holder : Node} {subject predicate key : String}
    (hsubject : HasSubject minted holder subject) (hkey : encodeKey key = .ok predicate) :
    ∀ (items : List Value) ⦃m m' : Mint⦄ ⦃emitted : Emitted⦄,
      Yields (encodeItems codec subject predicate key items) m emitted m' → m'.minted ⊆ minted →
        List.Forall₂ (Edge.Stated codec minted) (items.flatMap Value.treeEdges) emitted.nested ∧
          List.Forall₂ (Edge.Stated codec minted) (items.map fun object => ⟨holder, key, object⟩)
            emitted.own
  | [] => by
    intro m m' emitted h _
    obtain ⟨rfl, rfl⟩ := Yields.pure_iff.1 h
    exact ⟨.nil, .nil⟩
  | item :: rest => by
    intro m m' emitted h hminted
    obtain ⟨before, object, after, m₁, hitem, hrest, rfl⟩ := yields_encodeItems_cons_iff.1 h
    have hfirst := (encodeItems_repeats rest hrest).minted_subset
    obtain ⟨hbefore, hobject⟩ := encodeObject_stated item hitem (List.Subset.trans hfirst hminted)
    obtain ⟨hnested, hown⟩ := encodeItems_stated hsubject hkey rest hrest hminted
    exact ⟨List.rel_append hbefore hnested, .cons ⟨hsubject, hkey, hobject⟩ hown⟩
termination_by items => (sizeOf items, 0)

theorem encodeProperty_stated {holder : Node} {subject predicate key : String}
    (hsubject : HasSubject minted holder subject) (hkey : encodeKey key = .ok predicate) :
    ∀ (v : Value) ⦃m m' : Mint⦄ ⦃emitted : Emitted⦄,
      Yields (encodeProperty codec subject predicate key v) m emitted m' → m'.minted ⊆ minted →
        List.Forall₂ (Edge.Stated codec minted) (v.objects.flatMap Value.treeEdges)
            emitted.nested ∧
          List.Forall₂ (Edge.Stated codec minted) (Edge.ofProperty holder (key, v)) emitted.own
  | v => by
    intro m m' emitted h hminted
    rw [encodeProperty.eq_def] at h
    split at h
    · rename_i items
      exact encodeItems_stated hsubject hkey items h hminted
    · obtain ⟨⟨before, object⟩, m₁, hv, h⟩ := Yields.bind_iff.1 h
      obtain ⟨rfl, rfl⟩ := Yields.pure_iff.1 h
      obtain ⟨hbefore, hobject⟩ := encodeObject_stated v hv hminted
      rw [Edge.ofProperty, Value.objects_of_ne_list hobject.ne_list, List.flatMap_singleton]
      exact ⟨hbefore, .cons ⟨hsubject, hkey, hobject⟩ .nil⟩
termination_by v => (sizeOf v, 1)

theorem encodeEntries_stated {holder : Node} {subject : String}
    (hsubject : HasSubject minted holder subject) :
    ∀ (entries : List (String × Value)) ⦃m m' : Mint⦄ ⦃emitted : Emitted⦄,
      Yields (encodeEntries codec subject entries) m emitted m' → m'.minted ⊆ minted →
        List.Forall₂ (Edge.Stated codec minted)
            ((edges entries).flatMap fun edge => edge.2.objects.flatMap Value.treeEdges)
            emitted.nested ∧
          List.Forall₂ (Edge.Stated codec minted)
            ((edges entries).flatMap (Edge.ofProperty holder)) emitted.own
  | [] => by
    intro m m' emitted h _
    obtain ⟨rfl, rfl⟩ := Yields.pure_iff.1 h
    exact ⟨.nil, .nil⟩
  | (key, value) :: rest => by
    intro m m' emitted h hminted
    by_cases hid : key = Vocabulary.idKey
    · rw [hid, encodeEntries_id] at h
      rw [hid, edges_cons_id]
      exact encodeEntries_stated hsubject rest h hminted
    · obtain ⟨predicate, here, after, m₁, hkey, hhere, hrest, rfl⟩ :=
        (yields_encodeEntries_cons_iff hid).1 h
      have hfirst := (encodeEntries_repeats rest hrest).minted_subset
      obtain ⟨hnested, hown⟩ := encodeProperty_stated hsubject hkey value hhere
        (List.Subset.trans hfirst hminted)
      obtain ⟨hothers, hothersOwn⟩ := encodeEntries_stated hsubject rest hrest hminted
      rw [edges_cons hid, List.flatMap_cons, List.flatMap_cons]
      exact ⟨List.rel_append hnested hothers, List.rel_append hown hothersOwn⟩
termination_by entries => (sizeOf entries, 0)

end

end

end Triple

/-! ## Whole trees -/

namespace Encoded

theorem stated_of_build {codec : Codec} {root : Node} {m m' : Mint}
    {result : List Triple × Option String} {minted : List Reference}
    (h : Yields (build codec (.node root)) m result m') (hminted : m'.minted ⊆ minted) :
    List.Forall₂ (Edge.Stated codec minted) (treeEdges root) result.1 := by
  obtain ⟨⟨triples, subject⟩, m₁, hnode, h⟩ := Yields.bind_iff.1 h
  obtain ⟨rfl, rfl⟩ := Yields.pure_iff.1 h
  exact (Triple.encodeObject_stated (.node root) hnode hminted).1

/-- **Encoding emits one triple for each edge, children first.** The triples of a node that was
encoded state the edges of its tree, one by one: the trees below a node come before its own edges,
one after the other in the order of its keys and of the elements of their lists, and so do its own
edges. These are the own edges of all nodes of the tree. With the minted identifiers written back,
the same triples state the edges of the tree about the identifiers that are there. -/
theorem edges_children_first {codec : Codec} {root : Node} {allocator : IdAllocator}
    {encoded : Encoded} (h : (ofValue codec (.node root) allocator).1 = .ok encoded) :
    List.Forall₂ (Edge.Stated codec encoded.allocated) (treeEdges root) encoded.triples ∧
      (treeEdges root).Perm ((Value.node root).preorder.flatMap ownEdges) ∧
      ∃ given, (Value.node root).identify encoded.allocated = (.node given, []) ∧
        List.Forall₂ (Edge.Stated codec []) (treeEdges given) encoded.triples := by
  have hrun := ofValue_eq_iff.1 (Prod.ext h rfl)
  have hstated := stated_of_build hrun (List.Subset.refl encoded.allocated)
  refine ⟨hstated, treeEdges_perm root (ne_list_of_stated hstated), ?_⟩
  obtain ⟨ids, hids, -, hagain⟩ := build_repeats hrun
  obtain rfl : encoded.allocated = ids := hids
  obtain ⟨_, hgiven, hyields⟩ := hagain []
  rw [List.append_nil] at hgiven
  obtain ⟨given, hnode⟩ := Value.exists_identify_node root encoded.allocated
  rw [hgiven] at hnode
  obtain rfl := hnode
  exact ⟨given, hgiven, stated_of_build (hyields ⟨allocator, []⟩) (List.Subset.refl [])⟩

/-- A node that holds two nodes without an identifier and a number in one list; the second of these
nodes holds another one. -/
def reception : Node :=
  [("name", .string "Ann"),
    ("guests", .list [.node [("@id", .null), ("name", .string "Bob")], .integer 3,
      .node [("knows", .node [("rank", .term "first"), ("@id", .reference ⟨"zoe", by decide⟩)])]]),
    ("@id", .string "ann")]

/-- What is stated about the guests comes first, and about whom they know before that. -/
theorem edges_children_first_reception :
    ∃ encoded, (ofValue .empty (.node reception) (.countingFrom 7)).1 = .ok encoded ∧
      encoded.triples.map Triple.predicate =
        [":name", ":rank", ":knows", ":name", ":guests", ":guests", ":guests"] ∧
      List.Forall₂ (Edge.Stated .empty encoded.allocated) (treeEdges reception)
        encoded.triples := by
  obtain ⟨encoded, hencoded, hpredicates⟩ : ∃ encoded,
      (ofValue .empty (.node reception) (.countingFrom 7)).1 = .ok encoded ∧
      encoded.triples.map Triple.predicate =
        [":name", ":rank", ":knows", ":name", ":guests", ":guests", ":guests"] :=
    ⟨_, rfl, rfl⟩
  exact ⟨encoded, hencoded, hpredicates, (edges_children_first hencoded).1⟩

end Encoded

end LinkedData
