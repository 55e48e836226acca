import LinkedData.Proofs.Result.Handles
import LinkedData.Proofs.Result.Records

/-!
# Links between the nodes of a tree

When the records of a describable tree have been read, every locator of a node leads to the
position of its record, and nothing else is taken for a link. So behind each edge of a node the
decoded graph has links to the nodes that the tree has there, and the other objects themselves.
-/

namespace LinkedData

open Literal

namespace ResultGraph

/-- The records of the tree were read, in this order of its nodes. -/
structure Received (root : Node) (order : List Node) (raws : List RawRecord) : Prop where
  /-- the tree can be described -/
  describable : (Value.node root).Describable
  /-- each node comes once -/
  perm : order.Perm (Value.node root).preorder
  /-- each record was read -/
  read : List.Forall₂ ReadFrom order raws

/-! ## Positions -/

namespace Received

variable {root : Node} {order : List Node} {raws : List RawRecord}
  (h : Received root order raws)

include h

theorem mem_order {entries : Node} : entries ∈ order ↔ entries ∈ (Value.node root).preorder :=
  h.perm.mem_iff

theorem mem_preorder {i : Nat} {entries : Node} (hi : order[i]? = some entries) :
    entries ∈ (Value.node root).preorder :=
  h.mem_order.1 (List.mem_of_getElem? hi)

theorem identifier {entries : Node} (hmem : entries ∈ (Value.node root).preorder) :
    ∃ r, identifier? entries = some (.reference r) :=
  (h.describable.nodes entries hmem).identifier

theorem nodup : order.Nodup :=
  h.perm.nodup_iff.2 (List.Nodup.of_map identifier? h.describable.distinct)

theorem position_unique {i j : Nat} {entries : Node} (hi : order[i]? = some entries)
    (hj : order[j]? = some entries) : i = j := by
  obtain ⟨hlt, -⟩ := List.getElem?_eq_some_iff.1 hi
  exact (List.getElem?_inj hlt h.nodup).1 (hi.trans hj.symm)

theorem locators : raws.map (·.locator) = order.map nodeLocator := by
  have hread := h.read
  clear h
  induction hread with
  | nil => rfl
  | cons hraw _ ih => rw [List.map_cons, List.map_cons, ih, hraw.locator]

theorem nodup_locators : (order.map nodeLocator).Nodup := by
  refine h.nodup.map_on fun es hes fs hfs heq => ?_
  have hes := h.mem_order.1 hes
  have hfs := h.mem_order.1 hfs
  obtain ⟨r, hr⟩ := h.identifier hes
  obtain ⟨s, hs⟩ := h.identifier hfs
  rw [nodeLocator_eq hr, nodeLocator_eq hs] at heq
  refine h.describable.eq_of_identifier hes hfs ?_
  rw [hr, hs, Description.locator_injective heq]

/-- The locator of a node leads to its record. -/
theorem target?_node {i : Nat} {entries : Node} (hi : order[i]? = some entries) :
    target? (raws.map (·.locator)) (nodeLocator entries) = some i := by
  have hlocator : (order.map nodeLocator)[i]? = some (nodeLocator entries) := by
    rw [List.getElem?_map, hi]
    rfl
  rw [h.locators, target?_eq_some_iff]
  exact lastAt_of_nodup h.nodup_locators hlocator

/-- What identifies no node leads nowhere. -/
theorem target?_scalar {v : Value} (hv : some v ∉ (Value.node root).identifiers) {text : String}
    (htext : decodeLocator text = v) : target? (raws.map (·.locator)) text = none := by
  rw [target?, h.locators]
  refine (lastPosition?_eq_none_iff 0).2 fun hmem => hv ?_
  obtain ⟨entries, hentries, rfl⟩ := List.mem_map.1 hmem
  obtain ⟨r, hr⟩ := h.identifier (h.mem_order.1 hentries)
  rw [nodeLocator_eq hr, decodeLocator_locator] at htext
  rw [← htext, ← hr]
  exact List.mem_map_of_mem (h.mem_order.1 hentries)

/-! ## Linked objects -/

/-- A child becomes a link to its record. -/
theorem linked_child {child : Node} {i : Nat} (hi : order[i]? = some child) :
    linked (target? (raws.map (·.locator))) (objectRaw (.node child)) = .link i := by
  obtain ⟨r, hr⟩ := h.identifier (h.mem_preorder hi)
  have htarget := h.target?_node hi
  rw [nodeLocator_eq hr] at htarget
  rw [objectRaw, pointer_node hr, pointerRaw, linked, htarget]

/-- A scalar stays what it is. -/
theorem linked_scalar {v : Value} (hexact : v.Exact) (hself : v.pointer = v)
    (hids : some v ∉ (Value.node root).identifiers) :
    linked (target? (raws.map (·.locator))) (objectRaw v) = .value v := by
  rw [objectRaw, hself]
  rcases pointerRaw_cases hexact with hv | ⟨text, hv, htext⟩
  · rw [hv, linked]
  · rw [hv, linked, h.target?_scalar hids htext, htext]

theorem exists_position {entries : Node} (hmem : entries ∈ (Value.node root).preorder) :
    ∃ i : Nat, order[i]? = some entries :=
  List.mem_iff_getElem?.1 (h.mem_order.2 hmem)

end Received

/-! ## Decoded nodes -/

/-- The edges of a node after links were made. -/
def linkedEdges (target : String → Option Nat) (entries : Node) : Fields Decoded :=
  (edges entries).map fun edge => (edge.1, linked target (edgeRaw edge.2))

/-- The decoded node has the identifier and the edges of the node. -/
structure DecodedAs (target : String → Option Nat) (entries : Node) (node : DecodedNode) :
    Prop where
  /-- the identifier -/
  id : ∀ r, identifier? entries = some (.reference r) → node.id = some r
  /-- no property comes twice -/
  distinct : node.properties.Distinct
  /-- the properties are the edges, in some order -/
  properties : node.properties.Perm (linkedEdges target entries)

theorem names_linkedEdges (target : String → Option Nat) (entries : Node) :
    (linkedEdges target entries).map Prod.fst = (edges entries).map Prod.fst := by
  rw [linkedEdges, List.map_map]
  rfl

theorem nameOf?_locator (r : Reference) : nameOf? r.locator = some r := by
  have hafter : Text.after? Vocabulary.ids r.locator = some r.name :=
    Text.after?_eq_some_iff.2 rfl
  rw [nameOf?, hafter, Option.bind_some, Reference.ofName?_name]

theorem linkedProperties_perm {entries : Node} {raw : RawRecord} (hread : ReadFrom entries raw)
    (target : String → Option Nat) :
    (linkedProperties target raw).Perm (linkedEdges target entries) := by
  have hmap := hread.properties.map fun property => (property.1, linked target property.2)
  rw [rawEdges, List.map_map] at hmap
  exact hmap

/-- A record that was read from a node is decoded as the node. -/
theorem decodedAs_nodeOf {entries : Node} (hdistinct : entries.Distinct) {raw : RawRecord}
    (hread : ReadFrom entries raw) (target : String → Option Nat) :
    DecodedAs target entries (nodeOf target raw) := by
  have hlinked := linkedProperties_perm hread target
  have hkeys : (linkedEdges target entries).Distinct := by
    rw [Fields.Distinct, Fields.names, names_linkedEdges]
    exact hdistinct.sublist (List.filter_sublist.map _)
  have hproperties : Fields.Distinct (linkedProperties target raw) :=
    (hlinked.map Prod.fst).nodup_iff.2 hkeys
  refine ⟨fun r hr => ?_, ?_, ?_⟩
  · rw [nodeOf, hread.locator, nodeLocator_eq hr, nameOf?_locator]
  · rw [nodeOf, Fields.ofList_eq_self hproperties]
    exact hproperties
  · rw [nodeOf, Fields.ofList_eq_self hproperties]
    exact hlinked

theorem exists_of_forall₂ {α β : Type} {R : α → β → Prop} {xs : List α} {ys : List β}
    (h : List.Forall₂ R xs ys) {i : Nat} {x : α} (hi : xs[i]? = some x) :
    ∃ y, ys[i]? = some y ∧ R x y := by
  induction h generalizing i with
  | nil => cases hi
  | cons hr _ ih =>
    cases i with
    | zero =>
      obtain rfl := Option.some.inj hi
      exact ⟨_, rfl, hr⟩
    | succ i => exact ih hi

namespace Received

variable {root : Node} {order : List Node} {raws : List RawRecord}
  (h : Received root order raws)

include h

/-- At the position of a node stands the node. -/
theorem exists_node {i : Nat} {entries : Node} (hi : order[i]? = some entries) (unlink : Bool) :
    ∃ node, (ofRecords raws unlink).get? i = some node ∧
      DecodedAs (target? (raws.map (·.locator))) entries node := by
  obtain ⟨raw, hraw, hread⟩ := exists_of_forall₂ h.read hi
  have hdistinct := (h.describable.nodes entries (h.mem_preorder hi)).distinct
  refine ⟨nodeOf (target? (raws.map (·.locator))) raw, ?_, decodedAs_nodeOf hdistinct hread _⟩
  rw [ofRecords, get?, List.getElem?_map, hraw]
  rfl

theorem length_nodes (unlink : Bool) : (ofRecords raws unlink).nodes.length = order.length := by
  rw [ofRecords, List.length_map]
  exact h.read.length_eq.symm

/-- A node is found by its identifier. -/
theorem find?_node {i : Nat} {entries : Node} (hi : order[i]? = some entries) {r : Reference}
    (hr : identifier? entries = some (.reference r)) (unlink : Bool) :
    (ofRecords raws unlink).find? r = some i := by
  obtain ⟨node, hnode, hdecoded⟩ := h.exists_node hi unlink
  obtain ⟨hlt, hget⟩ := List.getElem?_eq_some_iff.1 hnode
  rw [find?, List.findIdx?_eq_some_iff_getElem]
  refine ⟨hlt, ?_, fun j hj hid => ?_⟩
  · rw [hget, hdecoded.id r hr]
    exact beq_self_eq_true _
  · -- an earlier node with the same name would be the same node
    have hlen : j < order.length := by
      rw [← h.length_nodes unlink]
      exact Nat.lt_trans hj hlt
    have hother : order[j]? = some order[j] := List.getElem?_eq_getElem hlen
    obtain ⟨other, hget', hdecoded'⟩ := h.exists_node hother unlink
    obtain ⟨s, hs⟩ := h.identifier (h.mem_preorder hother)
    rw [(List.getElem?_eq_some_iff.1 hget').2, hdecoded'.id s hs, beq_iff_eq] at hid
    obtain rfl := Option.some.inj hid
    have hsame := h.describable.eq_of_identifier (h.mem_preorder hother) (h.mem_preorder hi)
      (hs.trans hr.symm)
    rw [hsame] at hother
    exact absurd (h.position_unique hother hi) (Nat.ne_of_lt hj)

end Received

/-! ## Listed nodes -/

theorem links_collapse (target : String → Option Nat) (items : List RawProperty) :
    (linked target (collapse items)).links =
      items.flatMap fun item => (linked target item).links := by
  rw [collapse.eq_def]
  split
  · rw [List.flatMap_singleton]
  · rw [linked, Decoded.links, linkedItems_eq_map, Decoded.linksOfItems_eq_flatMap,
      List.flatMap_map]

namespace Received

variable {root : Node} {order : List Node} {raws : List RawRecord}
  (h : Received root order raws)

include h

/-- An object links to the record of the node that it is, if it is one. -/
theorem mem_links_object {parent : Node} (hparent : parent ∈ (Value.node root).preorder)
    {edge : String × Value} (hedge : edge ∈ edges parent) {object : Value}
    (hobject : object ∈ edge.2.objects) {p : Nat} :
    p ∈ (linked (target? (raws.map (·.locator))) (objectRaw object)).links ↔
      ∃ child, object = .node child ∧ order[p]? = some child := by
  rcases h.describable.object_cases hparent hedge hobject with
    ⟨child, r, rfl, hchild, -, -⟩ | ⟨hexact, hself, hids⟩
  · obtain ⟨j, hj⟩ := h.exists_position (h.describable.mem_of_mem_children hparent hchild)
    rw [h.linked_child hj, Decoded.links, List.mem_singleton]
    constructor
    · rintro rfl
      exact ⟨child, rfl, hj⟩
    · rintro ⟨other, hother, hp⟩
      obtain rfl := Value.node.inj hother
      exact h.position_unique hp hj
  · rw [h.linked_scalar hexact hself hids, Decoded.links]
    constructor
    · intro hp
      cases hp
    · rintro ⟨child, rfl, -⟩
      cases hexact

/-- The links of a node lead to its children. -/
theorem mem_links {i p : Nat} {parent : Node} (hi : order[i]? = some parent) :
    p ∈ ((linkedEdges (target? (raws.map (·.locator))) parent).flatMap fun edge => edge.2.links) ↔
      ∃ child ∈ children parent, order[p]? = some child := by
  have hparent := h.mem_preorder hi
  rw [linkedEdges, List.flatMap_map, List.mem_flatMap]
  constructor
  · rintro ⟨edge, hedge, hp⟩
    rw [edgeRaw, links_collapse, List.flatMap_map, List.mem_flatMap] at hp
    obtain ⟨object, hobject, hp⟩ := hp
    obtain ⟨child, rfl, hchild⟩ := (h.mem_links_object hparent hedge hobject).1 hp
    exact ⟨child, mem_children.2 ⟨edge, hedge, hobject⟩, hchild⟩
  · rintro ⟨child, hchild, hp⟩
    obtain ⟨edge, hedge, hobject⟩ := mem_children.1 hchild
    refine ⟨edge, hedge, ?_⟩
    rw [edgeRaw, links_collapse, List.flatMap_map, List.mem_flatMap]
    exact ⟨.node child, hobject, (h.mem_links_object hparent hedge hobject).2 ⟨child, rfl, hp⟩⟩

/-- From the record of a node, other nodes are linked exactly if they are children of it. -/
theorem mem_linksFrom {i p : Nat} {parent : Node} (hi : order[i]? = some parent) {raw : RawRecord}
    (hread : ReadFrom parent raw) :
    p ∈ linksFrom (target? (raws.map (·.locator))) i raw ↔
      p ≠ i ∧ ∃ child ∈ children parent, order[p]? = some child := by
  have hperm := linkedProperties_perm hread (target? (raws.map (·.locator)))
  rw [linksFrom, List.mem_filter, bne_iff_ne, ← h.mem_links hi,
    (hperm.flatMap_right fun property => property.2.links).mem_iff, and_comm]

/-- A node is linked from another one exactly if it is a child of that. -/
theorem mem_spliced {p : Nat} :
    p ∈ splicedFrom (target? (raws.map (·.locator))) 0 raws ↔
      ∃ i parent, order[i]? = some parent ∧ p ≠ i ∧
        ∃ child ∈ children parent, order[p]? = some child := by
  rw [mem_splicedFrom]
  constructor
  · rintro ⟨i, raw, hraw, hp⟩
    obtain ⟨parent, hi, hread⟩ := exists_of_forall₂ h.read.flip hraw
    rw [Nat.zero_add] at hp
    exact ⟨i, parent, hi, (h.mem_linksFrom hi hread).1 hp⟩
  · rintro ⟨i, parent, hi, hp⟩
    obtain ⟨raw, hraw, hread⟩ := exists_of_forall₂ h.read hi
    refine ⟨i, raw, hraw, ?_⟩
    rw [Nat.zero_add]
    exact (h.mem_linksFrom hi hread).2 hp

/-- Every node but the topmost is linked from another one. -/
theorem mem_spliced_iff {p : Nat} {entries : Node} (hp : order[p]? = some entries) :
    p ∈ splicedFrom (target? (raws.map (·.locator))) 0 raws ↔ entries ≠ root := by
  rw [h.mem_spliced]
  constructor
  · rintro ⟨i, parent, hi, -, child, hchild, hp'⟩ rfl
    obtain rfl := Option.some.inj (hp.symm.trans hp')
    exact h.describable.not_mem_below (mem_preorder_self entries)
      (child_below entries h.describable.nodes (h.mem_preorder hi) hchild)
  · intro hne
    rcases exists_parent root h.describable.nodes (h.mem_preorder hp) with rfl | ⟨parent, hm, hc⟩
    · exact absurd rfl hne
    · obtain ⟨i, hi⟩ := h.exists_position hm
      refine ⟨i, parent, hi, ?_, entries, hc, hp⟩
      rintro rfl
      obtain rfl := Option.some.inj (hp.symm.trans hi)
      exact h.describable.not_mem_children hm hc

theorem target?_position {p : Nat} (hp : p < order.length) :
    ((raws.map (·.locator))[p]?.bind (target? (raws.map (·.locator))) == some p) = true := by
  have hget : order[p]? = some order[p] := List.getElem?_eq_getElem hp
  have hlocator : (raws.map (·.locator))[p]? = some (nodeLocator order[p]) := by
    rw [h.locators, List.getElem?_map, hget]
    rfl
  rw [hlocator, Option.bind_some, h.target?_node hget]
  exact beq_self_eq_true _

/-- Without unlinking every node is listed. -/
theorem topLevel_all : (ofRecords raws false).topLevel = List.range order.length := by
  have hlen : (raws.map (·.locator)).length = order.length := by
    rw [h.locators, List.length_map]
  rw [ofRecords, listedPositions, hlen, List.filter_eq_self]
  intro p hp
  rw [h.target?_position (List.mem_range.1 hp)]
  rfl

/-- With unlinking only the topmost node is. -/
theorem topLevel_unlink {i : Nat} (hi : order[i]? = some root) :
    (ofRecords raws true).topLevel = [i] := by
  have hlen : (raws.map (·.locator)).length = order.length := by
    rw [h.locators, List.length_map]
  have hlt : i < order.length := (List.getElem?_eq_some_iff.1 hi).1
  have hone : (List.range order.length).count i = 1 :=
    List.count_eq_one_of_mem List.nodup_range (List.mem_range.2 hlt)
  have hfilter : (List.range order.length).filter (· == i) = [i] := by
    rw [List.filter_beq, hone]
    rfl
  rw [ofRecords, listedPositions, hlen, ← hfilter]
  refine List.filter_congr fun p hp => ?_
  have hlt' := List.mem_range.1 hp
  have hget : order[p]? = some order[p] := List.getElem?_eq_getElem hlt'
  rw [h.target?_position hlt', Bool.true_and, Bool.true_and, Bool.eq_iff_iff, beq_iff_eq,
    Bool.not_eq_true', List.contains_eq_mem, decide_eq_false_iff_not, h.mem_spliced_iff hget,
    ne_eq, not_not]
  constructor
  · intro heq
    rw [heq] at hget
    exact h.position_unique hget hi
  · rintro rfl
    exact Option.some.inj (hget.symm.trans hi)

end Received

end ResultGraph

end LinkedData
