import LinkedData.Proofs.Result.Links
import LinkedData.Proofs.Value.Equality

/-!
# Describing a stored tree gives it back

A tree goes into a store as triples; described by the store and decoded, its topmost node is
expanded again, link by link. No link is cut on the way: in a tree no node is below itself. So
what comes out equals what went in (`Encoded.describe_round_trip`).
-/

namespace LinkedData

open Literal

/-! ## Equal values -/

theorem Value.Exact.equals_self {v : Value} (h : v.Exact) : v.equals v = true := by
  cases h with
  | null => rfl
  | _ => exact beq_self_eq_true _

/-- An identified node is its identifier and its edges. -/
theorem perm_edges {entries : Node} (hdistinct : entries.Distinct) {v : Value}
    (hid : identifier? entries = some v) :
    entries.Perm ((Vocabulary.idKey, v) :: edges entries) := by
  induction entries with
  | nil => cases hid
  | cons entry rest ih =>
    obtain ⟨key, value⟩ := entry
    rw [identifier?, Fields.get?] at hid
    rw [Fields.Distinct, Fields.names, List.map_cons, List.nodup_cons] at hdistinct
    by_cases hkey : key = Vocabulary.idKey
    · obtain rfl := hkey
      rw [if_pos rfl] at hid
      obtain rfl := Option.some.inj hid
      have hrest : edges rest = rest := by
        refine List.filter_eq_self.2 fun other hother => bne_iff_ne.2 ?_
        exact fun heq => hdistinct.1 (List.mem_map.2 ⟨other, hother, heq⟩)
      rw [edges_cons_id, hrest]
    · rw [if_neg hkey] at hid
      rw [edges_cons hkey]
      exact ((ih hdistinct.2 hid).cons _).trans (List.Perm.swap _ _ _)

namespace ResultGraph

/-! ## Expanding a node -/

section

variable {ids : List (Option Value)} {target : String → Option Nat} {link : Nat → Value}

theorem itemsEqual_linked {items : List Value}
    (h : ∀ item ∈ items, ((linked target (objectRaw item)).toValue link).equals item = true) :
    Value.itemsEqual (Decoded.toValues link (linkedItems target (items.map objectRaw))) items =
      true := by
  induction items with
  | nil => rfl
  | cons item rest ih =>
    rw [List.map_cons, linkedItems, Decoded.toValues, Value.itemsEqual,
      h item List.mem_cons_self, ih fun other hother => h other (List.mem_cons_of_mem _ hother)]
    rfl

/-- If the objects behind an edge come back, so does the value of the edge. -/
theorem edge_restored {v : Value} (hv : IsEdge ids v)
    (h : ∀ object ∈ v.objects, ((linked target (objectRaw object)).toValue link).equals object =
      true) :
    ((linked target (edgeRaw v)).toValue link).equals v = true := by
  cases hv with
  | single hobject =>
    have hself := hobject.objects_eq
    rw [edgeRaw, hself]
    rw [hself] at h
    exact h v (List.mem_singleton_self v)
  | @several items hlength _ _ =>
    have hcollapse : edgeRaw (.list items) = .list (items.map objectRaw) := by
      rw [edgeRaw, Value.objects]
      rcases items with _ | ⟨first, _ | ⟨second, rest⟩⟩
      · cases hlength
      · exact absurd hlength (Nat.lt_irrefl 1)
      · rfl
    rw [hcollapse, linked, Decoded.toValue, Value.equals]
    exact itemsEqual_linked h

/-- The entries that a decoded node is expanded to. -/
theorem expand_eq {entries : Node} {node : DecodedNode} (hdecoded : DecodedAs target entries node)
    {r : Reference} (hr : identifier? entries = some (.reference r)) :
    node.expand link = .node ((Vocabulary.idKey, .reference r) ::
      node.properties.map fun property => (property.1, property.2.toValue link)) := by
  have hid : Vocabulary.idKey ∉ node.properties.names := by
    have hperm := hdecoded.properties.map Prod.fst
    rw [names_linkedEdges] at hperm
    intro hmem
    obtain ⟨edge, hedge, hkey⟩ := List.mem_map.1 (hperm.mem_iff.1 hmem)
    exact (mem_edges.1 hedge).2 hkey
  have hnodup : (Fields.names [(Vocabulary.idKey, Value.reference r)] ++
      Fields.names (node.properties.map fun property =>
        (property.1, property.2.toValue link))).Nodup := by
    rw [Fields.names_map]
    exact List.nodup_cons.2 ⟨hid, hdecoded.distinct⟩
  rw [DecodedNode.expand_eq_foldl, DecodedNode.idEntry, hdecoded.id r hr]
  exact congrArg Value.node (Fields.foldl_set hnodup)

/-- A decoded node whose edges come back equals the node. -/
theorem expand_restored {entries : Node} (hnode : DescribableNode ids entries)
    {node : DecodedNode} (hdecoded : DecodedAs target entries node)
    (h : ∀ edge ∈ edges entries,
      ((linked target (edgeRaw edge.2)).toValue link).equals edge.2 = true) :
    (node.expand link).equals (.node entries) = true := by
  obtain ⟨r, hr⟩ := hnode.identifier
  have hlength : ((Vocabulary.idKey, Value.reference r) ::
      node.properties.map fun property => (property.1, property.2.toValue link)).length =
        entries.length := by
    rw [(perm_edges hnode.distinct hr).length_eq, List.length_cons, List.length_cons,
      List.length_map, hdecoded.properties.length_eq, linkedEdges, List.length_map]
  rw [expand_eq hdecoded hr, Value.equals, hlength, beq_self_eq_true, Bool.true_and,
    Value.entriesWithin_iff]
  intro entry hentry
  rcases List.mem_cons.1 hentry with rfl | hentry
  · exact ⟨.reference r, hr, beq_self_eq_true _⟩
  · obtain ⟨property, hproperty, rfl⟩ := List.mem_map.1 hentry
    obtain ⟨edge, hedge, rfl⟩ := List.mem_map.1 (hdecoded.properties.mem_iff.1 hproperty)
    exact ⟨edge.2, hnode.distinct.get?_of_mem (mem_edges.1 hedge).1, h edge hedge⟩

end

/-! ## Expanding a tree -/

/-- No node of the part is on the path of the nodes that are being expanded. -/
def OffPath (order : List Node) (path : List Nat) (entries : Node) : Prop :=
  ∀ other ∈ (Value.node entries).preorder, ∀ j : Nat, order[j]? = some other → j ∉ path

namespace Received

variable {root : Node} {order : List Node} {raws : List RawRecord}
  (h : Received root order raws)

include h

/-- No node is below itself, so its children stay off the path when it is put on it. -/
theorem offPath_child {parent child : Node} (hmem : parent ∈ (Value.node root).preorder) {i : Nat}
    (hi : order[i]? = some parent) {path : List Nat} (hpath : OffPath order path parent)
    (hchild : child ∈ children parent) : OffPath order (i :: path) child := by
  intro other hother j hj
  have hbelow : other ∈ below parent := (sublist_below hchild).subset hother
  rw [List.mem_cons, not_or]
  constructor
  · rintro rfl
    obtain rfl := Option.some.inj (hi.symm.trans hj)
    exact h.describable.not_mem_below hmem hbelow
  · refine hpath other ?_ j hj
    rw [(h.describable.nodes parent hmem).preorder]
    exact List.mem_cons_of_mem parent hbelow

/-- A node comes back when it is expanded, if no node at or below it is being expanded already
and there is a step for each of them. -/
theorem valueOn_equals (unlink : Bool) (entries : Node)
    (hmem : entries ∈ (Value.node root).preorder) {fuel i : Nat} {path : List Nat}
    (hi : order[i]? = some entries) (hpath : OffPath order path entries)
    (hfuel : (Value.node entries).preorder.length ≤ fuel) :
    ((ofRecords raws unlink).valueOn fuel path i).equals (.node entries) = true := by
  -- the induction is on the tree; the path grows by the node, whose children are below it
  induction entries using node_induction generalizing fuel i path with
  | step entries ih =>
    have hnode := h.describable.nodes entries hmem
    rw [hnode.preorder, List.length_cons] at hfuel
    obtain ⟨node, hget, hdecoded⟩ := h.exists_node hi unlink
    cases fuel with
    | zero => exact absurd hfuel (Nat.not_succ_le_zero _)
    | succ fuel =>
      have hnew : path.contains i = false := by
        rw [List.contains_eq_mem, decide_eq_false_iff_not]
        exact hpath entries (mem_preorder_self entries) i hi
      rw [valueOn, hget]
      dsimp only
      rw [hnew, if_neg Bool.false_ne_true]
      refine expand_restored hnode hdecoded fun edge hedge => ?_
      refine edge_restored (hnode.values edge hedge) fun object hobject => ?_
      rcases h.describable.object_cases hmem hedge hobject with
        ⟨child, r, rfl, hchild, -, -⟩ | ⟨hexact, hself, hids⟩
      · have hbelow := h.describable.mem_of_mem_children hmem hchild
        have hshorter : (Value.node child).preorder.length ≤ fuel :=
          Nat.le_trans (sublist_below hchild).length_le (Nat.le_of_succ_le_succ hfuel)
        obtain ⟨j, hj⟩ := h.exists_position hbelow
        rw [h.linked_child hj, Decoded.toValue]
        exact ih child hchild hbelow hj (h.offPath_child hmem hi hpath hchild) hshorter
      · rw [h.linked_scalar hexact hself hids, Decoded.toValue]
        exact hexact.equals_self

/-- The topmost node comes back. -/
theorem toValue_equals {i : Nat} (hi : order[i]? = some root) (unlink : Bool) :
    ((ofRecords raws unlink).toValue i).equals (.node root) = true := by
  refine h.valueOn_equals unlink root (mem_preorder_self root) hi
    (fun _ _ _ _ => List.not_mem_nil) ?_
  rw [h.length_nodes, h.perm.length_eq]
  exact Nat.le_succ _

end Received

end ResultGraph

/-! ## The round trip -/

open ResultGraph in
/-- **What is stored and described comes back.** A describable tree can be encoded, and nothing
is minted for it. Whatever a store answers that describes the triples, with the records and their
members in any order, can be decoded; the topmost node is found by its identifier, and expanding
it gives a value equal to the tree. With unlinking nothing else is listed, without it all
nodes are. -/
theorem Encoded.describe_round_trip (codec : Codec) (allocator : IdAllocator) (root : Node)
    (h : (Value.node root).Describable) :
    ∃ encoded r, Encoded.ofValue codec (.node root) allocator = (.ok encoded, allocator) ∧
      encoded.allocated = [] ∧ identifier? root = some (.reference r) ∧
      encoded.root = some (bracketed r.locator) ∧
      ∀ records, Description.Describes encoded.triples records → ∀ unlink : Bool,
        ∃ graph position, ResultGraph.ofJson codec (.array records) unlink = .ok graph ∧
          graph.find? r = some position ∧
          (graph.toValue position).equals (.node root) = true ∧
          graph.topLevel = if unlink then [position]
            else List.range (Value.node root).preorder.length := by
  obtain ⟨r, hr⟩ := (h.nodes root (mem_preorder_self root)).identifier
  obtain ⟨blocks, hblocks, hrun⟩ := Triple.inBlocks_node codec root h.nodes
  refine ⟨⟨blocks.flatMap (Triple.ofNode codec), some (objectText codec (.node root)), []⟩, r,
    ?_, rfl, hr, ?_, fun records hrecords unlink => ?_⟩
  · have hbuild : Yields (Encoded.build codec (.node root)) ⟨allocator, []⟩
        (blocks.flatMap (Triple.ofNode codec), some (objectText codec (.node root)))
        ⟨allocator, []⟩ :=
      Yields.bind_iff.2 ⟨_, _, hrun "" _, Yields.pure_iff.2 ⟨rfl, rfl⟩⟩
    rw [Yields] at hbuild
    unfold Encoded.ofValue
    rw [hbuild]
    rfl
  · rw [objectText_node codec hr]
  · have hnodes : ∀ entries ∈ blocks, DescribableNode (Value.node root).identifiers entries :=
      fun entries hentries => h.nodes entries (hblocks.mem_iff.1 hentries)
    have hdistinct : (blocks.map identifier?).Nodup :=
      (hblocks.map identifier?).nodup_iff.2 h.distinct
    obtain ⟨order, horder, hrecords⟩ := Description.describes_blocks hnodes hdistinct hrecords
    have hperm : order.Perm (Value.node root).preorder := horder.trans hblocks
    obtain ⟨raws, hraws, hread⟩ := rawRecords_recordOf h hrecords
      (fun entries hentries => hperm.mem_iff.1 hentries) 0
    have hreceived : Received root order raws := ⟨h, hperm, hread⟩
    obtain ⟨i, hi⟩ := hreceived.exists_position (mem_preorder_self root)
    refine ⟨ofRecords raws unlink, i, ?_, hreceived.find?_node hi hr unlink,
      hreceived.toValue_equals hi unlink, ?_⟩
    · exact ofJson_eq_ok_iff.2 ⟨records, raws, rfl, hraws, rfl⟩
    · cases unlink with
      | true => exact hreceived.topLevel_unlink hi
      | false =>
        rw [if_neg Bool.false_ne_true, ← hperm.length_eq]
        exact hreceived.topLevel_all

namespace Household

/-- The topmost of three nodes. -/
def ann : Reference := ⟨"ann", by decide +kernel⟩

/-- A node in a list. -/
def ben : Reference := ⟨"ben", by decide +kernel⟩

/-- A node behind an edge. -/
def cleo : Reference := ⟨"cleo", by decide +kernel⟩

/-- No node of the tree. -/
def dora : Reference := ⟨"dora", by decide +kernel⟩

/-- A tree whose topmost node has its identifier between two properties. -/
def tree : Node :=
  [("name", .string "Ann \"the boss\""), ("@id", .reference ann),
    ("keeps", .list [.node [("@id", .reference ben), ("age", .integer 3)], .null]),
    ("friend", .node [("@id", .reference cleo), ("knows", .reference dora)])]

/-- Its identifiers. -/
def ids : List (Option Value) :=
  [some (.reference ann), some (.reference ben), some (.reference cleo)]

theorem describable_tree : (Value.node tree).Describable := by
  have hids : (Value.node tree).identifiers = ids := rfl
  have hedge : ∀ {key : String} {value : Value} {entries : Node}, (key, value) ∈ entries →
      key ≠ Vocabulary.idKey → value ≠ .list [] → HasEdge entries :=
    fun hmem hid hne => ⟨_, hmem, hid, hne⟩
  have hann : DescribableNode ids tree := by
    refine ⟨by decide +kernel, ⟨ann, rfl⟩, hedge (.head _) (by decide) nofun, by decide +kernel, ?_⟩
    refine List.forall_mem_cons.2 ⟨.single (.inr ⟨.string ?_ ?_, by simp [ids]⟩), ?_⟩
    · decide +kernel
    · decide +kernel
    refine List.forall_mem_cons.2 ⟨.several (Nat.le_refl 2) (by simp) ?_, ?_⟩
    · exact List.forall_mem_cons.2 ⟨.inl ⟨_, rfl⟩, List.forall_mem_singleton.2
        (.inr ⟨.null, by simp [ids]⟩)⟩
    · exact List.forall_mem_singleton.2 (.single (.inl ⟨_, rfl⟩))
  have hben : DescribableNode ids [("@id", .reference ben), ("age", .integer 3)] := by
    refine ⟨by decide +kernel, ⟨ben, rfl⟩, hedge (.tail _ (.head _)) (by decide) nofun,
      by decide +kernel, ?_⟩
    exact List.forall_mem_singleton.2 (.single (.inr ⟨.integer 3, by simp [ids]⟩))
  have hcleo : DescribableNode ids [("@id", .reference cleo), ("knows", .reference dora)] := by
    refine ⟨by decide +kernel, ⟨cleo, rfl⟩, hedge (.tail _ (.head _)) (by decide) nofun,
      by decide +kernel, ?_⟩
    have hdora : some (.reference dora) ∉ ids := by
      simp [ids, ann, ben, cleo, dora]
    exact List.forall_mem_singleton.2 (.single (.inr ⟨.reference dora, hdora⟩))
  refine ⟨?_, ?_⟩
  · rw [hids]
    exact List.forall_mem_cons.2 ⟨hann, List.forall_mem_cons.2
      ⟨hben, List.forall_mem_singleton.2 hcleo⟩⟩
  · rw [hids]
    simp [ids, ann, ben, cleo]

/-- Stored, described with its records in reverse order, and decoded, the tree is back. -/
theorem describe_round_trip_household :
    (Value.node tree).Describable ∧
      ∃ encoded graph position,
        Encoded.ofValue .empty (.node tree) (.countingFrom 7) = (.ok encoded, .countingFrom 7) ∧
        ResultGraph.ofJson .empty
          (.array ((Description.describe encoded.triples).reverse.map .object)) true = .ok graph ∧
        graph.topLevel = [position] ∧
        (graph.toValue position).equals (.node tree) = true := by
  obtain ⟨encoded, r, hencoded, -, -, -, hdescribe⟩ :=
    Encoded.describe_round_trip .empty (.countingFrom 7) tree describable_tree
  have hreverse := Description.describes_of_perm
    (List.reverse_perm (Description.describe encoded.triples))
  obtain ⟨graph, position, hgraph, -, hvalue, hlisted⟩ := hdescribe _ hreverse true
  exact ⟨describable_tree, encoded, graph, position, hencoded, hgraph, hlisted, hvalue⟩

end Household

end LinkedData
