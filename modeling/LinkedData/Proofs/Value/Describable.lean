import Mathlib.Data.List.Nodup
import LinkedData.Proofs.Literal.RoundTrip
import LinkedData.Proofs.Value.Preorder

/-!
# Trees that a store can describe

A store knows triples, not trees. What it holds about a node is listed under the identifier of
the node, and the objects are scalars and the identifiers of other nodes. A tree can be
recovered from that if its nodes are told apart by their identifiers, and if its scalars are
exact and cannot be taken for nodes. That is what `Value.Describable` demands.

Facts about such trees are proved along the children of a node (`node_induction`).
-/

namespace LinkedData

/-! ## Edges and children -/

namespace Value

/-- What stands behind an edge with this value: the elements of a list, or the value. -/
def objects : Value → List Value
  | .list items => items
  | single => [single]

/-- What is stored as the object of a triple: for a node, its identifier. -/
def pointer : Value → Value
  | .node entries => (identifier? entries).getD .null
  | scalar => scalar

end Value

/-- The properties of a node besides its identifier. -/
def edges (entries : Node) : List (String × Value) :=
  entries.filter (·.1 != Vocabulary.idKey)

/-- The nodes that a node holds directly or in a list. -/
def children (entries : Node) : List Node :=
  (edges entries).flatMap fun edge => edge.2.objects.filterMap Value.node?

/-- The nodes below a node, each before those below it. -/
def below (entries : Node) : List Node :=
  (children entries).flatMap fun child => (Value.node child).preorder

theorem mem_edges {entries : Node} {edge : String × Value} :
    edge ∈ edges entries ↔ edge ∈ entries ∧ edge.1 ≠ Vocabulary.idKey := by
  rw [edges, List.mem_filter, bne_iff_ne]

theorem edges_cons_id (value : Value) (rest : List (String × Value)) :
    edges ((Vocabulary.idKey, value) :: rest) = edges rest := by
  rw [edges, edges, List.filter_cons_of_neg]
  exact fun h => bne_iff_ne.1 h rfl

theorem edges_cons {key : String} (hkey : key ≠ Vocabulary.idKey) (value : Value)
    (rest : List (String × Value)) :
    edges ((key, value) :: rest) = (key, value) :: edges rest := by
  rw [edges, edges, List.filter_cons_of_pos]
  exact bne_iff_ne.2 hkey

theorem Value.node?_eq_some_iff {v : Value} {entries : Node} :
    v.node? = some entries ↔ v = .node entries := by
  constructor
  · intro h
    cases v with
    | node es =>
      obtain rfl := Option.some.inj h
      rfl
    | _ => cases h
  · rintro rfl
    rfl

theorem mem_children {entries child : Node} :
    child ∈ children entries ↔ ∃ edge ∈ edges entries, .node child ∈ edge.2.objects := by
  rw [children, List.mem_flatMap]
  refine exists_congr fun edge => and_congr_right fun _ => ?_
  rw [List.mem_filterMap]
  constructor
  · rintro ⟨object, hmem, h⟩
    rw [← Value.node?_eq_some_iff.1 h]
    exact hmem
  · intro h
    exact ⟨_, h, rfl⟩

theorem Value.sizeOf_le_of_mem_objects {v object : Value} (h : object ∈ v.objects) :
    sizeOf object ≤ sizeOf v := by
  rw [Value.objects.eq_def] at h
  split at h
  · have := List.sizeOf_lt_of_mem h
    rw [Value.list.sizeOf_spec]
    omega
  · exact Nat.le_of_eq (congrArg sizeOf (List.mem_singleton.1 h))

theorem sizeOf_lt_of_mem_children {entries child : Node} (h : child ∈ children entries) :
    sizeOf child < sizeOf entries := by
  obtain ⟨edge, hedge, hobject⟩ := mem_children.1 h
  have hentry := List.sizeOf_lt_of_mem (mem_edges.1 hedge).1
  have hvalue := Value.sizeOf_le_of_mem_objects hobject
  obtain ⟨key, value⟩ := edge
  rw [Prod.mk.sizeOf_spec] at hentry
  rw [Value.node.sizeOf_spec] at hvalue
  simp only at hvalue
  omega

/-- What holds of a node if it holds of its children holds of every node. -/
theorem node_induction {motive : Node → Prop}
    (step : ∀ entries, (∀ child ∈ children entries, motive child) → motive entries)
    (entries : Node) : motive entries := by
  induction hsize : sizeOf entries using Nat.strongRecOn generalizing entries with
  | _ size ih =>
    subst hsize
    exact step entries fun child hchild => ih _ (sizeOf_lt_of_mem_children hchild) child rfl

/-! ## Describable trees -/

/-- A key that names a property of the own vocabulary. -/
structure PlainKey (key : String) : Prop where
  /-- it is not cut at a `#` -/
  whole : '#' ∉ key.toList
  /-- it is not reserved -/
  unreserved : Text.startsWith "@" key = false
  /-- it is no operator -/
  noOperator : Text.startsWith "$" key = false
  /-- it is no wildcard -/
  noWildcard : Text.startsWith "?" key = false
  /-- it does not stand in angle brackets -/
  unwrapped : (Text.startsWith "<" key && Text.endsWith ">" key) = false

instance (key : String) : Decidable (PlainKey key) :=
  decidable_of_iff ('#' ∉ key.toList ∧ Text.startsWith "@" key = false ∧
      Text.startsWith "$" key = false ∧ Text.startsWith "?" key = false ∧
      (Text.startsWith "<" key && Text.endsWith ">" key) = false)
    ⟨fun ⟨h₁, h₂, h₃, h₄, h₅⟩ => ⟨h₁, h₂, h₃, h₄, h₅⟩, fun ⟨h₁, h₂, h₃, h₄, h₅⟩ =>
      ⟨h₁, h₂, h₃, h₄, h₅⟩⟩

/-- What can stand behind an edge, if the nodes have these identifiers: a node, or an exact
scalar that identifies none of them. -/
def IsObject (ids : List (Option Value)) (v : Value) : Prop :=
  (∃ entries, v = .node entries) ∨ (v.Exact ∧ some v ∉ ids)

/-- What a property can hold: an object, or at least two objects that all differ. -/
inductive IsEdge (ids : List (Option Value)) : Value → Prop where
  /-- one object -/
  | single {v : Value} (object : IsObject ids v) : IsEdge ids v
  /-- several objects -/
  | several {items : List Value} (length : 2 ≤ items.length) (distinct : items.Nodup)
      (objects : ∀ item ∈ items, IsObject ids item) : IsEdge ids (.list items)

/-- A node that can be described, if the nodes have these identifiers. -/
structure DescribableNode (ids : List (Option Value)) (entries : Node) : Prop where
  /-- no key comes twice -/
  distinct : entries.Distinct
  /-- the identifier is a reference -/
  identifier : ∃ r, identifier? entries = some (.reference r)
  /-- there is an edge -/
  edge : HasEdge entries
  /-- the keys name properties -/
  keys : ∀ edge ∈ edges entries, PlainKey edge.1
  /-- the values are objects or lists of objects -/
  values : ∀ edge ∈ edges entries, IsEdge ids edge.2

/-- The identifiers of the nodes of a value. -/
def Value.identifiers (v : Value) : List (Option Value) :=
  v.preorder.map identifier?

/-- All nodes of the value can be described, and no two have the same identifier. -/
structure Value.Describable (v : Value) : Prop where
  /-- the nodes can be described -/
  nodes : ∀ entries ∈ v.preorder, DescribableNode v.identifiers entries
  /-- they are told apart by their identifiers -/
  distinct : v.identifiers.Nodup

section

variable {ids : List (Option Value)}

theorem IsObject.objects_eq {v : Value} (h : IsObject ids v) : v.objects = [v] := by
  rcases h with ⟨entries, rfl⟩ | ⟨hexact, -⟩
  · rfl
  · cases hexact with
    | _ => rfl

theorem IsEdge.objects {v object : Value} (h : IsEdge ids v) (hobject : object ∈ v.objects) :
    IsObject ids object := by
  cases h with
  | single hv =>
    rw [hv.objects_eq, List.mem_singleton] at hobject
    rw [hobject]
    exact hv
  | several _ _ hitems => exact hitems object hobject

theorem IsEdge.objects_ne_nil {v : Value} (h : IsEdge ids v) : v.objects ≠ [] := by
  cases h with
  | single hv =>
    rw [hv.objects_eq]
    exact List.cons_ne_nil _ _
  | several hlength _ _ =>
    rintro hnil
    rw [Value.objects] at hnil
    rw [hnil] at hlength
    cases hlength

theorem pointer_node {entries : Node} {v : Value} (h : identifier? entries = some v) :
    (Value.node entries).pointer = v := by
  rw [Value.pointer, h, Option.getD_some]

theorem Value.Exact.pointer {v : Value} (h : v.Exact) : v.pointer = v := by
  cases h with
  | _ => rfl

theorem Value.Exact.preorder {v : Value} (h : v.Exact) : v.preorder = [] := by
  cases h with
  | _ => simp only [Value.preorder]

theorem Value.Exact.node? {v : Value} (h : v.Exact) : v.node? = none := by
  cases h with
  | _ => rfl

theorem Value.preorderItems_eq (items : List Value) :
    Value.preorderItems items = items.flatMap Value.preorder := by
  induction items with
  | nil => rfl
  | cons item rest ih => rw [Value.preorderItems, ih, List.flatMap_cons]

theorem Value.flatMap_preorder_objects (v : Value) :
    v.objects.flatMap Value.preorder = v.preorder := by
  cases v with
  | list items => rw [Value.objects, Value.preorder, Value.preorderItems_eq]
  | _ => exact List.flatMap_singleton ..

theorem Value.preorderEntries_eq (entries : List (String × Value)) :
    Value.preorderEntries entries = (edges entries).flatMap fun edge => edge.2.preorder := by
  induction entries with
  | nil => rfl
  | cons entry rest ih =>
    obtain ⟨key, value⟩ := entry
    rw [Value.preorderEntries]
    by_cases hkey : key = Vocabulary.idKey
    · rw [if_pos hkey, ih, hkey, edges_cons_id]
    · rw [if_neg hkey, ih, edges_cons hkey, List.flatMap_cons]

/-- Among objects only the nodes have nodes in them. -/
theorem flatMap_preorder_of_objects {items : List Value} (h : ∀ item ∈ items, IsObject ids item) :
    items.flatMap Value.preorder =
      (items.filterMap Value.node?).flatMap fun child => (Value.node child).preorder := by
  induction items with
  | nil => rfl
  | cons item rest ih =>
    rw [List.flatMap_cons, ih fun other hother => h other (List.mem_cons_of_mem _ hother)]
    rcases h item List.mem_cons_self with ⟨entries, rfl⟩ | ⟨hexact, -⟩
    · have hnode : (Value.node entries).node? = some entries := rfl
      rw [List.filterMap_cons_some hnode, List.flatMap_cons]
    · rw [List.filterMap_cons_none hexact.node?, hexact.preorder, List.nil_append]

/-- The nodes of a describable node are itself and those of its children. -/
theorem DescribableNode.preorder {entries : Node} (h : DescribableNode ids entries) :
    (Value.node entries).preorder = entries :: below entries := by
  rw [Value.preorder, Value.preorderEntries_eq, below, children, List.flatMap_assoc]
  refine congrArg (entries :: ·) (List.flatMap_congr fun edge hedge => ?_)
  rw [← Value.flatMap_preorder_objects]
  exact flatMap_preorder_of_objects fun object hobject => (h.values edge hedge).objects hobject

/-! ## Nodes below a node -/

theorem mem_preorder_self (entries : Node) : entries ∈ (Value.node entries).preorder := by
  rw [Value.preorder]
  exact List.mem_cons_self

theorem sublist_below {entries child : Node} (hchild : child ∈ children entries) :
    (Value.node child).preorder.Sublist (below entries) := by
  rw [below, List.flatMap_def]
  exact List.sublist_flatten_of_mem (List.mem_map_of_mem hchild)

theorem mem_below {entries child : Node} (hchild : child ∈ children entries) :
    child ∈ below entries :=
  (sublist_below hchild).subset (mem_preorder_self child)

theorem DescribableNode.preorder_child {entries child : Node} (h : DescribableNode ids entries)
    (hchild : child ∈ children entries) :
    (Value.node child).preorder.Sublist (Value.node entries).preorder := by
  rw [h.preorder]
  exact (sublist_below hchild).cons entries

theorem DescribableNode.root_or_child {entries other : Node} (h : DescribableNode ids entries)
    (hother : other ∈ (Value.node entries).preorder) :
    other = entries ∨ ∃ child ∈ children entries, other ∈ (Value.node child).preorder := by
  rw [h.preorder] at hother
  exact (List.mem_cons.1 hother).imp_right List.mem_flatMap.1

variable {root : Node}

theorem child_nodes (hnodes : ∀ entries ∈ (Value.node root).preorder, DescribableNode ids entries)
    {child : Node} (hchild : child ∈ children root) :
    ∀ entries ∈ (Value.node child).preorder, DescribableNode ids entries :=
  fun entries hentries => hnodes entries
    (((hnodes root (mem_preorder_self root)).preorder_child hchild).subset hentries)

/-- The nodes of every part of a tree are among the nodes of the tree, in the same order. -/
theorem preorder_sublist (root : Node)
    (hnodes : ∀ entries ∈ (Value.node root).preorder, DescribableNode ids entries)
    {entries : Node} (h : entries ∈ (Value.node root).preorder) :
    (Value.node entries).preorder.Sublist (Value.node root).preorder := by
  induction root using node_induction with
  | step root ih =>
    have hroot := hnodes root (mem_preorder_self root)
    rcases hroot.root_or_child h with rfl | ⟨child, hchild, hmem⟩
    · exact List.Sublist.refl _
    · exact (ih child hchild (child_nodes hnodes hchild) hmem).trans (hroot.preorder_child hchild)

/-- Every node of a tree but the topmost has a parent in it. -/
theorem exists_parent (root : Node)
    (hnodes : ∀ entries ∈ (Value.node root).preorder, DescribableNode ids entries)
    {entries : Node} (h : entries ∈ (Value.node root).preorder) :
    entries = root ∨ ∃ parent ∈ (Value.node root).preorder, entries ∈ children parent := by
  induction root using node_induction with
  | step root ih =>
    have hroot := hnodes root (mem_preorder_self root)
    rcases hroot.root_or_child h with rfl | ⟨child, hchild, hmem⟩
    · exact .inl rfl
    · refine .inr ?_
      rcases ih child hchild (child_nodes hnodes hchild) hmem with rfl | ⟨parent, hparent, hin⟩
      · exact ⟨root, mem_preorder_self root, hchild⟩
      · exact ⟨parent, (hroot.preorder_child hchild).subset hparent, hin⟩

/-- No child is the topmost node: children come after it. -/
theorem child_below (root : Node)
    (hnodes : ∀ entries ∈ (Value.node root).preorder, DescribableNode ids entries)
    {parent child : Node} (h : parent ∈ (Value.node root).preorder)
    (hchild : child ∈ children parent) :
    child ∈ below root := by
  induction root using node_induction with
  | step root ih =>
    have hroot := hnodes root (mem_preorder_self root)
    rcases hroot.root_or_child h with rfl | ⟨other, hother, hmem⟩
    · exact mem_below hchild
    · have hbelow := ih other hother (child_nodes hnodes hother) hmem
      refine (sublist_below hother).subset ?_
      rw [(child_nodes hnodes hother other (mem_preorder_self other)).preorder]
      exact List.mem_cons_of_mem _ hbelow

/-! ## Objects and identifiers -/

namespace Value.Describable

variable (h : (Value.node root).Describable) {parent : Node}
  (hparent : parent ∈ (Value.node root).preorder)

include h

theorem eq_of_identifier {entries other : Node} (he : entries ∈ (Value.node root).preorder)
    (ho : other ∈ (Value.node root).preorder) (hid : identifier? entries = identifier? other) :
    entries = other :=
  List.inj_on_of_nodup_map h.distinct he ho hid

theorem nodup_preorder {entries : Node} (he : entries ∈ (Value.node root).preorder) :
    (Value.node entries).preorder.Nodup :=
  (List.Nodup.of_map identifier? h.distinct).sublist (preorder_sublist root h.nodes he)

include hparent

/-- No node is below itself. -/
theorem not_mem_below : parent ∉ below parent := by
  have hnodup := h.nodup_preorder hparent
  rw [(h.nodes parent hparent).preorder, List.nodup_cons] at hnodup
  exact hnodup.1

/-- No node is its own child. -/
theorem not_mem_children : parent ∉ children parent :=
  fun hchild => h.not_mem_below hparent (mem_below hchild)

theorem mem_of_mem_children {child : Node} (hchild : child ∈ children parent) :
    child ∈ (Value.node root).preorder := by
  have hbelow := child_below root h.nodes hparent hchild
  rw [(h.nodes root (mem_preorder_self root)).preorder]
  exact List.mem_cons_of_mem _ hbelow

/-- An object is a node of the tree, or it stands for itself and for no node. -/
theorem object_cases {edge : String × Value} (hedge : edge ∈ edges parent) {object : Value}
    (hobject : object ∈ edge.2.objects) :
    (∃ child r, object = .node child ∧ child ∈ children parent ∧
        identifier? child = some (.reference r) ∧ object.pointer = .reference r) ∨
      (object.Exact ∧ object.pointer = object ∧
        some object ∉ (Value.node root).identifiers) := by
  rcases ((h.nodes parent hparent).values edge hedge).objects hobject with
    ⟨child, rfl⟩ | ⟨hexact, hids⟩
  · have hchild : child ∈ children parent := mem_children.2 ⟨edge, hedge, hobject⟩
    obtain ⟨r, hr⟩ := (h.nodes child (h.mem_of_mem_children hparent hchild)).identifier
    exact .inl ⟨child, r, rfl, hchild, hr, pointer_node hr⟩
  · exact .inr ⟨hexact, hexact.pointer, hids⟩

theorem exact_pointer {edge : String × Value} (hedge : edge ∈ edges parent) {object : Value}
    (hobject : object ∈ edge.2.objects) : object.pointer.Exact := by
  rcases h.object_cases hparent hedge hobject with ⟨_, r, -, -, -, hr⟩ | ⟨hexact, hself, -⟩
  · rw [hr]
    exact .reference r
  · rw [hself]
    exact hexact

/-- Different objects are stored differently. -/
theorem pointer_injective {edge : String × Value} (hedge : edge ∈ edges parent) {x y : Value}
    (hx : x ∈ edge.2.objects) (hy : y ∈ edge.2.objects) (heq : x.pointer = y.pointer) : x = y := by
  rcases h.object_cases hparent hedge hx with ⟨c, r, rfl, hc, hr, hxr⟩ | ⟨-, hxs, hxids⟩
  · have hmem := h.mem_of_mem_children hparent hc
    rcases h.object_cases hparent hedge hy with ⟨d, s, rfl, hd, hs, hys⟩ | ⟨-, hys, hyids⟩
    · rw [hxr, hys] at heq
      rw [h.eq_of_identifier hmem (h.mem_of_mem_children hparent hd) (by rw [hr, hs, heq])]
    · rw [hxr, hys] at heq
      rw [← heq, ← hr] at hyids
      exact absurd (List.mem_map_of_mem hmem) hyids
  · rcases h.object_cases hparent hedge hy with ⟨d, s, rfl, hd, hs, hys⟩ | ⟨-, hys, -⟩
    · rw [hxs, hys] at heq
      rw [heq, ← hs] at hxids
      exact absurd (List.mem_map_of_mem (h.mem_of_mem_children hparent hd)) hxids
    · rw [← hxs, heq, hys]

theorem nodup_objects {edge : String × Value} (hedge : edge ∈ edges parent) :
    (edge.2.objects.map Value.pointer).Nodup := by
  have hnodup : edge.2.objects.Nodup := by
    have hvalue := (h.nodes parent hparent).values edge hedge
    obtain ⟨key, v⟩ := edge
    cases hvalue with
    | single hv =>
      rw [hv.objects_eq]
      exact List.nodup_singleton _
    | several _ hdistinct _ => exact hdistinct
  exact hnodup.map_on fun x hx y hy => h.pointer_injective hparent hedge hx hy

end Value.Describable

end

end LinkedData
