import LinkedData.Proofs.Property
import LinkedData.Proofs.Value.Describable

/-!
# The triples of a describable tree

Encoding a describable tree mints nothing and always succeeds. The triples come in blocks, one
for each node: what is stored about a node is contiguous, in the order of its edges
(`Triple.ofNode`). Only the order of the blocks is left open here.
-/

namespace LinkedData

open Literal

/-- The wire text of what is stored for a value in the place of an object. -/
def objectText (codec : Codec) (v : Value) : String :=
  (codec.encodeLiteral v.pointer).toOption.getD ""

theorem objectText_eq {codec : Codec} {v : Value} {text : String}
    (h : codec.encodeLiteral v.pointer = .ok text) : objectText codec v = text := by
  rw [objectText, h]
  rfl

theorem objectText_node (codec : Codec) {entries : Node} {r : Reference}
    (h : identifier? entries = some (.reference r)) :
    objectText codec (.node entries) = bracketed r.locator := by
  refine objectText_eq ?_
  rw [pointer_node h]
  rfl

namespace Triple

/-- The triples of one edge. -/
def ofEdge (codec : Codec) (subject : String) (edge : String × Value) : List Triple :=
  edge.2.objects.map fun object => ⟨subject, ":" ++ edge.1, objectText codec object⟩

/-- The triples of a node, without those of the nodes below it. -/
def ofNode (codec : Codec) (entries : Node) : List Triple :=
  (edges entries).flatMap (ofEdge codec (objectText codec (.node entries)))

/-- Encoding the value gives the blocks of its nodes, and the text that stands for it. -/
def InBlocks (codec : Codec) (v : Value) : Prop :=
  ∃ blocks : List Node, blocks.Perm v.preorder ∧ ∀ key m,
    Yields (encodeObject codec key v) m (blocks.flatMap (ofNode codec), objectText codec v) m

section

variable {codec : Codec} {ids : List (Option Value)}

theorem encodeKey_of_plainKey {key : String} (h : PlainKey key) :
    encodeKey key = .ok (":" ++ key) := by
  rw [encodeKey, if_neg, if_neg, encodeTerm_of_plain h.unreserved h.unwrapped]
  · rw [h.noWildcard]
    exact Bool.false_ne_true
  · rw [h.noOperator]
    exact Bool.false_ne_true

/-- A scalar has no block. -/
theorem inBlocks_of_exact {v : Value} (h : v.Exact) : InBlocks codec v := by
  obtain ⟨token, htoken, -⟩ := codec.exists_carries h
  refine ⟨[], ?_, fun key m => ?_⟩
  · rw [h.preorder]
  · have hrun : Yields (do return ([], ← Minting.lift (codec.encodeLiteral v))) m
        (([] : List Triple), token.text) m :=
      Yields.bind_iff.2 ⟨token.text, m, Yields.minting_lift_iff.2 ⟨htoken, rfl⟩,
        Yields.pure_iff.2 ⟨rfl, rfl⟩⟩
    cases h with
    | _ =>
      rw [objectText_eq htoken]
      exact hrun

theorem encodeItems_inBlocks {items : List Value} (h : ∀ item ∈ items, InBlocks codec item) :
    ∃ blocks : List Node, blocks.Perm (Value.preorderItems items) ∧ ∀ subject predicate key m,
      Yields (encodeItems codec subject predicate key items) m
        ⟨blocks.flatMap (ofNode codec),
          items.map fun object => ⟨subject, predicate, objectText codec object⟩⟩ m := by
  induction items with
  | nil => exact ⟨[], .nil, fun _ _ _ m => Yields.pure_iff.2 ⟨rfl, rfl⟩⟩
  | cons item rest ih =>
    obtain ⟨first, hfirst, hitem⟩ := h item List.mem_cons_self
    obtain ⟨others, hothers, hrest⟩ := ih fun other ho => h other (List.mem_cons_of_mem _ ho)
    refine ⟨first ++ others, ?_, fun subject predicate key m => ?_⟩
    · rw [Value.preorderItems]
      exact hfirst.append hothers
    · refine yields_encodeItems_cons_iff.2
        ⟨_, _, _, m, hitem key m, hrest subject predicate key m, ?_⟩
      rw [List.flatMap_append, List.map_cons]

theorem encodeProperty_inBlocks {v : Value} (hv : IsEdge ids v)
    (h : ∀ object ∈ v.objects, InBlocks codec object) :
    ∃ blocks : List Node, blocks.Perm v.preorder ∧ ∀ subject predicate key m,
      Yields (encodeProperty codec subject predicate key v) m
        ⟨blocks.flatMap (ofNode codec),
          v.objects.map fun object => ⟨subject, predicate, objectText codec object⟩⟩ m := by
  cases hv with
  | single hobject =>
    have hlist : ∀ items, v ≠ .list items := by
      rintro items rfl
      rcases hobject with ⟨entries, hnode⟩ | ⟨hexact, -⟩
      · cases hnode
      · cases hexact
    rw [hobject.objects_eq] at h ⊢
    obtain ⟨blocks, hperm, hrun⟩ := h v (List.mem_singleton_self v)
    refine ⟨blocks, hperm, fun subject predicate key m => ?_⟩
    rw [encodeProperty_single codec subject predicate key hlist]
    exact Yields.bind_iff.2 ⟨_, m, hrun key m, Yields.pure_iff.2 ⟨rfl, rfl⟩⟩
  | several _ _ _ =>
    obtain ⟨blocks, hperm, hrun⟩ := encodeItems_inBlocks h
    refine ⟨blocks, ?_, hrun⟩
    rw [Value.preorder]
    exact hperm

theorem encodeEntries_inBlocks {entries : List (String × Value)}
    (hkeys : ∀ edge ∈ edges entries, PlainKey edge.1)
    (hvalues : ∀ edge ∈ edges entries, IsEdge ids edge.2)
    (h : ∀ edge ∈ edges entries, ∀ object ∈ edge.2.objects, InBlocks codec object) :
    ∃ blocks : List Node, blocks.Perm (Value.preorderEntries entries) ∧ ∀ subject m,
      Yields (encodeEntries codec subject entries) m
        ⟨blocks.flatMap (ofNode codec), (edges entries).flatMap (ofEdge codec subject)⟩ m := by
  induction entries with
  | nil => exact ⟨[], .nil, fun _ m => Yields.pure_iff.2 ⟨rfl, rfl⟩⟩
  | cons entry rest ih =>
    obtain ⟨key, value⟩ := entry
    rw [Value.preorderEntries]
    by_cases hkey : key = Vocabulary.idKey
    · obtain rfl := hkey
      rw [edges_cons_id] at hkeys hvalues h ⊢
      rw [if_pos rfl]
      obtain ⟨blocks, hperm, hrun⟩ := ih hkeys hvalues h
      refine ⟨blocks, hperm, fun subject m => ?_⟩
      rw [encodeEntries_id]
      exact hrun subject m
    · rw [edges_cons hkey] at hkeys hvalues h ⊢
      rw [if_neg hkey]
      obtain ⟨first, hfirst, hhere⟩ := encodeProperty_inBlocks
        (hvalues _ List.mem_cons_self) (h _ List.mem_cons_self)
      obtain ⟨others, hothers, hrest⟩ := ih
        (fun edge hedge => hkeys edge (List.mem_cons_of_mem _ hedge))
        (fun edge hedge => hvalues edge (List.mem_cons_of_mem _ hedge))
        fun edge hedge => h edge (List.mem_cons_of_mem _ hedge)
      refine ⟨first ++ others, hfirst.append hothers, fun subject m => ?_⟩
      refine (yields_encodeEntries_cons_iff hkey).2 ⟨":" ++ key, _, _, m,
        encodeKey_of_plainKey (hkeys _ List.mem_cons_self), hhere subject (":" ++ key) key m,
        hrest subject m, ?_⟩
      rw [List.flatMap_append, List.flatMap_cons]
      rfl

/-- **A describable tree is encoded block by block.** -/
theorem inBlocks_node (codec : Codec) (root : Node)
    (hnodes : ∀ entries ∈ (Value.node root).preorder, DescribableNode ids entries) :
    InBlocks codec (.node root) := by
  induction root using node_induction with
  | step root ih =>
    have hroot := hnodes root (mem_preorder_self root)
    obtain ⟨r, hid⟩ := hroot.identifier
    have hobjects : ∀ edge ∈ edges root, ∀ object ∈ edge.2.objects, InBlocks codec object := by
      intro edge hedge object hobject
      rcases (hroot.values edge hedge).objects hobject with ⟨child, rfl⟩ | ⟨hexact, -⟩
      · have hchild : child ∈ children root := mem_children.2 ⟨edge, hedge, hobject⟩
        exact ih child hchild (child_nodes hnodes hchild)
      · exact inBlocks_of_exact hexact
    obtain ⟨blocks, hperm, hrun⟩ := encodeEntries_inBlocks hroot.keys hroot.values hobjects
    refine ⟨blocks ++ [root], ?_, fun key m => ?_⟩
    · rw [Value.preorder]
      exact (List.perm_append_singleton root blocks).trans (hperm.cons root)
    · have hsubject : Yields (subjectOf (identifier? root)) m
          (objectText codec (.node root)) m := by
        rw [hid, objectText_node codec hid]
        exact Yields.pure_iff.2 ⟨rfl, rfl⟩
      refine yields_encodeNode_iff.2 ⟨_, _, m, hsubject, hrun _ m, ?_⟩
      rw [List.flatMap_append, List.flatMap_singleton]
      rfl

end

end Triple

end LinkedData
