import Mathlib.Data.List.Perm.Basic
import LinkedData.Proofs.Triple.Steady

/-!
# The order of keys and lists

Nodes are told by their keys, and a list stands for several edges with one key. So the order of the
keys and of the elements of lists (`Value.Rearranged`) should only show in the order of the
triples. It does where every node has an identifier; otherwise it decides which node gets which of
the minted identifiers. Rearranged trees are encoded to the same triples in another order, or
neither of them is encoded (`Encoded.rearranged_alike`).

What a list of parts contributes can be rearranged as the list is, and a part can be replaced by
one that contributes the same in another order. The induction is on how the tree is rearranged.
-/

namespace LinkedData

/-! ## Rearranged values -/

/-- The second value is the first with the keys of any nodes and the elements of any lists, at any
depth, in another order. -/
inductive Value.Rearranged : Value → Value → Prop where
  /-- nothing is moved -/
  | refl (v : Value) : Rearranged v v
  /-- first one thing and then another is moved -/
  | trans {u v w : Value} : Rearranged u v → Rearranged v w → Rearranged u w
  /-- the keys of a node -/
  | keys {entries others : List (String × Value)} (perm : entries.Perm others) :
      Rearranged (.node entries) (.node others)
  /-- the elements of a list -/
  | elements {items others : List Value} (perm : items.Perm others) :
      Rearranged (.list items) (.list others)
  /-- something behind a key of a node -/
  | property {before after : List (String × Value)} {key : String} {v w : Value} :
      Rearranged v w →
      Rearranged (.node (before ++ (key, v) :: after)) (.node (before ++ (key, w) :: after))
  /-- something in an element of a list -/
  | element {before after : List Value} {v w : Value} : Rearranged v w →
      Rearranged (.list (before ++ v :: after)) (.list (before ++ w :: after))

namespace Value

theorem Rearranged.symm {v w : Value} (h : Rearranged v w) : Rearranged w v := by
  induction h with
  | refl v => exact .refl v
  | trans _ _ ih₁ ih₂ => exact ih₂.trans ih₁
  | keys perm => exact .keys perm.symm
  | elements perm => exact .elements perm.symm
  | property _ ih => exact .property ih
  | element _ ih => exact .element ih

/-- Scalars have nothing to rearrange. -/
theorem Rearranged.cases_eq {v w : Value} (h : Rearranged v w) :
    v = w ∨ (∃ entries others, v = .node entries ∧ w = .node others) ∨
      ∃ items others, v = .list items ∧ w = .list others := by
  induction h with
  | refl v => exact .inl rfl
  | trans _ _ ih₁ ih₂ =>
    rcases ih₁ with rfl | ⟨entries, others, rfl, rfl⟩ | ⟨items, others, rfl, rfl⟩
    · exact ih₂
    · rcases ih₂ with rfl | ⟨_, others', -, rfl⟩ | ⟨_, _, h, -⟩
      · exact .inr (.inl ⟨_, _, rfl, rfl⟩)
      · exact .inr (.inl ⟨_, _, rfl, rfl⟩)
      · cases h
    · rcases ih₂ with rfl | ⟨_, _, h, -⟩ | ⟨_, others', -, rfl⟩
      · exact .inr (.inr ⟨_, _, rfl, rfl⟩)
      · cases h
      · exact .inr (.inr ⟨_, _, rfl, rfl⟩)
  | keys _ | property _ _ => exact .inr (.inl ⟨_, _, rfl, rfl⟩)
  | elements _ | element _ _ => exact .inr (.inr ⟨_, _, rfl, rfl⟩)

end Value

/-! ## Identifiers and edges of a rearranged node -/

namespace Fields

variable {α : Type} {fields others : Fields α}

theorem Distinct.perm (h : fields.Distinct) (hperm : fields.Perm others) : others.Distinct :=
  (hperm.map Prod.fst).nodup_iff.1 h

/-- Without repeated names the order does not matter to a look-up. -/
theorem Distinct.get?_perm (h : fields.Distinct) (hperm : fields.Perm others) (name : String) :
    others.get? name = fields.get? name := by
  rcases hget : fields.get? name with _ | value
  · rw [get?_eq_none_iff] at hget ⊢
    exact fun hmem => hget ((hperm.map Prod.fst).symm.subset hmem)
  · exact (h.perm hperm).get?_of_mem (hperm.subset (mem_of_get? hget))

/-- A look-up does not notice that a field is replaced, or it finds this field. -/
theorem get?_replaced (before after : Fields α) (key : String) (v w : α) (name : String) :
    get? name (before ++ (key, w) :: after) = get? name (before ++ (key, v) :: after) ∨
      get? name (before ++ (key, v) :: after) = some v ∧
        get? name (before ++ (key, w) :: after) = some w := by
  induction before with
  | nil =>
    rw [List.nil_append, List.nil_append, get?, get?]
    by_cases hkey : key = name
    · rw [if_pos hkey, if_pos hkey]
      exact .inr ⟨rfl, rfl⟩
    · rw [if_neg hkey, if_neg hkey]
      exact .inl rfl
  | cons field before ih =>
    obtain ⟨other, value⟩ := field
    rw [List.cons_append, List.cons_append, get?, get?]
    by_cases hother : other = name
    · rw [if_pos hother, if_pos hother]
      exact .inl rfl
    · rw [if_neg hother, if_neg hother]
      exact ih

theorem names_replaced (before after : Fields α) (key : String) (v w : α) :
    names (before ++ (key, w) :: after) = names (before ++ (key, v) :: after) := by
  rw [names, names, List.map_append, List.map_append, List.map_cons, List.map_cons]

end Fields

theorem edges_append (before after : Node) :
    edges (before ++ after) = edges before ++ edges after :=
  List.filter_append ..

/-- Moving things in the identifier of a node does not take it away. -/
theorem isUnidentified_replaced {before after : Node} {key : String} {v w : Value}
    (h : v.Rearranged w) :
    isUnidentified (before ++ (key, w) :: after) =
      isUnidentified (before ++ (key, v) :: after) := by
  rw [isUnidentified, isUnidentified, identifier?, identifier?]
  rcases Fields.get?_replaced before after key v w Vocabulary.idKey with heq | ⟨hv, hw⟩
  · rw [heq]
  · rw [hv, hw]
    rcases h.cases_eq with rfl | ⟨_, _, rfl, rfl⟩ | ⟨_, _, rfl, rfl⟩ <;> rfl

theorem Value.Rearranged.identified {v w : Value} (h : v.Rearranged w) (hv : v.Identified) :
    w.Identified := by
  induction h with
  | refl v => exact hv
  | trans _ _ ih₁ ih₂ => exact ih₂ (ih₁ hv)
  | keys perm =>
    obtain ⟨⟨hdistinct, hid⟩, hedges⟩ := Value.identified_node_iff.1 hv
    refine Value.identified_node_iff.2 ⟨⟨hdistinct.perm perm, ?_⟩, fun edge hedge => ?_⟩
    · rw [← hid, isUnidentified, isUnidentified, identifier?, identifier?,
        hdistinct.get?_perm perm]
    · exact hedges edge ((perm.filter _).symm.subset hedge)
  | elements perm =>
    rw [Value.identified_list_iff] at hv ⊢
    exact fun item hitem => hv item (perm.symm.subset hitem)
  | @property before after key v w h ih =>
    obtain ⟨⟨hdistinct, hid⟩, hedges⟩ := Value.identified_node_iff.1 hv
    refine Value.identified_node_iff.2 ⟨⟨?_, ?_⟩, ?_⟩
    · rw [Fields.Distinct, Fields.names_replaced before after key v w]
      exact hdistinct
    · rw [isUnidentified_replaced h]
      exact hid
    · rw [edges_append] at hedges ⊢
      rw [List.forall_mem_append] at hedges ⊢
      refine ⟨hedges.1, ?_⟩
      by_cases hkey : key = Vocabulary.idKey
      · -- what stands under `@id` is no part of the tree
        rw [hkey, edges_cons_id] at hedges ⊢
        exact hedges.2
      · rw [edges_cons hkey, List.forall_mem_cons] at hedges ⊢
        exact ⟨ih hedges.2.1, hedges.2.2⟩
  | element h ih =>
    rw [Value.identified_list_iff, List.forall_mem_append, List.forall_mem_cons] at hv ⊢
    exact ⟨hv.1, ih hv.2.1, hv.2.2⟩

namespace Triple

variable {codec : Codec}

/-! ## Parts in another order -/

/-- The same triples of nested nodes and the same own ones, each in another order. -/
structure Emitted.Perm (a b : Emitted) : Prop where
  /-- the triples of nested nodes -/
  nested : a.nested.Perm b.nested
  /-- the triples about the node itself -/
  own : a.own.Perm b.own

theorem Emitted.Perm.refl (a : Emitted) : a.Perm a :=
  ⟨.refl _, .refl _⟩

theorem Emitted.Perm.trans {a b c : Emitted} (h : a.Perm b) (h' : b.Perm c) : a.Perm c :=
  ⟨h.nested.trans h'.nested, h.own.trans h'.own⟩

theorem Emitted.concat_perm {parts parts' : List Emitted} (h : parts.Perm parts') :
    (Emitted.concat parts).Perm (Emitted.concat parts') :=
  ⟨h.flatMap_right _, h.flatMap_right _⟩

section

variable {ι : Type} {R : ι → Emitted → Prop}

/-- What a list contributes is rearranged with the list. -/
theorem Contributes.perm {xs ys : List ι} {emitted : Emitted} (h : Contributes R xs emitted)
    (hperm : xs.Perm ys) : ∃ emitted', emitted.Perm emitted' ∧ Contributes R ys emitted' := by
  obtain ⟨parts, hparts, rfl⟩ := h
  obtain ⟨parts', hparts', hperm'⟩ := List.perm_comp_forall₂ hperm.symm hparts
  exact ⟨_, Emitted.concat_perm hperm'.symm, parts', hparts', rfl⟩

/-- What one thing contributes is rearranged with that thing. -/
theorem Contributes.replaced {before after : List ι} {x y : ι} {emitted : Emitted}
    (h : Contributes R (before ++ x :: after) emitted)
    (hxy : ∀ part, R x part → ∃ part', part.Perm part' ∧ R y part') :
    ∃ emitted', emitted.Perm emitted' ∧ Contributes R (before ++ y :: after) emitted' := by
  induction before generalizing emitted with
  | nil =>
    obtain ⟨part, others, hpart, hothers, rfl⟩ := contributes_cons_iff.1 h
    obtain ⟨part', hperm, hpart'⟩ := hxy part hpart
    exact ⟨_, ⟨hperm.nested.append_right _, hperm.own.append_right _⟩,
      contributes_cons_iff.2 ⟨part', others, hpart', hothers, rfl⟩⟩
  | cons first before ih =>
    obtain ⟨part, others, hpart, hothers, rfl⟩ := contributes_cons_iff.1 h
    obtain ⟨others', hperm, hothers'⟩ := ih hothers
    exact ⟨_, ⟨hperm.nested.append_left _, hperm.own.append_left _⟩,
      contributes_cons_iff.2 ⟨part, others', hpart, hothers', rfl⟩⟩

end

/-! ## Rearranged values are encoded alike -/

/-- Whatever comes of the first value, as an object or behind a key, comes of the second in another
order. -/
structure Alike (codec : Codec) (v w : Value) : Prop where
  /-- as an object, with the same token -/
  object : ∀ ⦃key : String⦄ ⦃triples : List Triple⦄ ⦃token : String⦄,
    Settles (encodeObject codec key v) (triples, token) →
      ∃ triples', triples.Perm triples' ∧ Settles (encodeObject codec key w) (triples', token)
  /-- behind a key -/
  property : ∀ ⦃subject predicate key : String⦄ ⦃part : Emitted⦄,
    Settles (encodeProperty codec subject predicate key v) part →
      ∃ part', part.Perm part' ∧ Settles (encodeProperty codec subject predicate key w) part'

theorem Alike.refl (v : Value) : Alike codec v v :=
  ⟨fun _ triples _ h => ⟨triples, .refl _, h⟩, fun _ _ _ part h => ⟨part, .refl part, h⟩⟩

theorem Alike.trans {u v w : Value} (h : Alike codec u v) (h' : Alike codec v w) :
    Alike codec u w := by
  constructor
  · intro key triples token hu
    obtain ⟨middle, hperm, hv⟩ := h.object hu
    obtain ⟨triples', hperm', hw⟩ := h'.object hv
    exact ⟨triples', hperm.trans hperm', hw⟩
  · intro subject predicate key part hu
    obtain ⟨middle, hperm, hv⟩ := h.property hu
    obtain ⟨part', hperm', hw⟩ := h'.property hv
    exact ⟨part', hperm.trans hperm', hw⟩

theorem Alike.addsItem {v w : Value} (h : Alike codec v w) {subject predicate key : String}
    {part : Emitted} (hv : AddsItem codec subject predicate key v part) :
    ∃ part', part.Perm part' ∧ AddsItem codec subject predicate key w part' := by
  obtain ⟨before, object, hobject, rfl⟩ := hv
  obtain ⟨before', hperm, hobject'⟩ := h.object hobject
  exact ⟨⟨before', [⟨subject, predicate, object⟩]⟩, ⟨hperm, .refl _⟩, before', object, hobject',
    rfl⟩

theorem Alike.addsProperty {v w : Value} (h : Alike codec v w) {subject key : String}
    {part : Emitted} (hv : AddsProperty codec subject (key, v) part) :
    ∃ part', part.Perm part' ∧ AddsProperty codec subject (key, w) part' := by
  obtain ⟨predicate, hkey, hpart⟩ := hv
  obtain ⟨part', hperm, hpart'⟩ := h.property hpart
  exact ⟨part', hperm, predicate, hkey, hpart'⟩

/-- Nodes are alike if they have the same subject and the same contributions. -/
theorem alike_node {entries others : Node} (hentries : (Value.node entries).Identified)
    (hothers : (Value.node others).Identified)
    (hsubject : ∀ token, Settles (subjectOf (identifier? entries)) token →
      Settles (subjectOf (identifier? others)) token)
    (hedges : ∀ token emitted, Contributes (AddsProperty codec token) (edges entries) emitted →
      ∃ emitted', emitted.Perm emitted' ∧
        Contributes (AddsProperty codec token) (edges others) emitted') :
    Alike codec (.node entries) (.node others) := by
  have hobject : ∀ ⦃key : String⦄ ⦃triples : List Triple⦄ ⦃token : String⦄,
      Settles (encodeObject codec key (.node entries)) (triples, token) → ∃ triples',
        triples.Perm triples' ∧
          Settles (encodeObject codec key (.node others)) (triples', token) := by
    intro key triples token h
    obtain ⟨htoken, emitted, hemitted, rfl⟩ := (settles_encodeObject_node_iff hentries).1 h
    obtain ⟨emitted', hperm, hemitted'⟩ := hedges token emitted hemitted
    exact ⟨_, hperm.nested.append hperm.own, (settles_encodeObject_node_iff hothers).2
      ⟨hsubject token htoken, emitted', hemitted', rfl⟩⟩
  refine ⟨hobject, fun subject predicate key part h => ?_⟩
  obtain ⟨before, object, hnode, rfl⟩ := (settles_encodeProperty_iff hentries nofun).1 h
  obtain ⟨before', hperm, hnode'⟩ := hobject hnode
  exact ⟨⟨before', [⟨subject, predicate, object⟩]⟩, ⟨hperm, .refl _⟩,
    (settles_encodeProperty_iff hothers nofun).2 ⟨before', object, hnode', rfl⟩⟩

/-- Lists are alike if they have the same contributions. -/
theorem alike_list {items others : List Value} (hitems : (Value.list items).Identified)
    (hothers : (Value.list others).Identified)
    (h : ∀ subject predicate key emitted,
      Contributes (AddsItem codec subject predicate key) items emitted →
        ∃ emitted', emitted.Perm emitted' ∧
          Contributes (AddsItem codec subject predicate key) others emitted') :
    Alike codec (.list items) (.list others) := by
  rw [Value.identified_list_iff] at hitems hothers
  refine ⟨fun _ _ _ hlist => (not_settles_throw hlist).elim,
    fun subject predicate key part hlist => ?_⟩
  obtain ⟨part', hperm, hpart'⟩ := h subject predicate key part
    ((settles_encodeItems_iff hitems).1 hlist)
  exact ⟨part', hperm, (settles_encodeItems_iff hothers).2 hpart'⟩

/-- Moving things in the identifier of a node does not change its subject: a node or a list is no
identifier. -/
theorem settles_subjectOf_replaced {before after : Node} {key token : String} {v w : Value}
    (h : v.Rearranged w)
    (hsubject : Settles (subjectOf (identifier? (before ++ (key, v) :: after))) token) :
    Settles (subjectOf (identifier? (before ++ (key, w) :: after))) token := by
  rw [identifier?] at hsubject ⊢
  rcases Fields.get?_replaced before after key v w Vocabulary.idKey with heq | ⟨hv, hw⟩
  · rw [heq]
    exact hsubject
  · rw [hv] at hsubject
    rw [hw]
    rcases h.cases_eq with rfl | ⟨_, _, rfl, -⟩ | ⟨_, _, rfl, -⟩
    · exact hsubject
    · exact (not_settles_throw hsubject).elim
    · exact (not_settles_throw hsubject).elim

/-- **Rearranged values are encoded alike**, if all their nodes have identifiers. -/
theorem alike_of_rearranged {v w : Value} (h : v.Rearranged w) (hv : v.Identified) :
    Alike codec v w := by
  induction h with
  | refl v => exact .refl v
  | trans first _ ih₁ ih₂ => exact (ih₁ hv).trans (ih₂ (first.identified hv))
  | @keys entries others perm =>
    obtain ⟨⟨hdistinct, -⟩, -⟩ := Value.identified_node_iff.1 hv
    refine alike_node hv ((Value.Rearranged.keys perm).identified hv) (fun token htoken => ?_)
      fun token emitted hemitted => hemitted.perm (perm.filter _)
    -- the identifier is found wherever it stands, since there is only one
    rw [identifier?, hdistinct.get?_perm perm]
    exact htoken
  | elements perm =>
    exact alike_list hv ((Value.Rearranged.elements perm).identified hv)
      fun _ _ _ _ hemitted => hemitted.perm perm
  | @property before after key v w h ih =>
    refine alike_node hv (h.property.identified hv) (fun token => settles_subjectOf_replaced h) ?_
    intro token emitted hemitted
    obtain ⟨-, hedges⟩ := Value.identified_node_iff.1 hv
    rw [edges_append] at hedges hemitted ⊢
    by_cases hkey : key = Vocabulary.idKey
    · -- the identifier contributes nothing
      rw [hkey, edges_cons_id] at hemitted ⊢
      exact ⟨emitted, .refl emitted, hemitted⟩
    · rw [edges_cons hkey] at hedges hemitted ⊢
      have hvalue : v.Identified := hedges _ (List.mem_append_right _ List.mem_cons_self)
      exact hemitted.replaced fun _ hpart => (ih hvalue).addsProperty hpart
  | @element before after v w h ih =>
    have hvalue : v.Identified := Value.identified_list_iff.1 hv v
      (List.mem_append_right _ List.mem_cons_self)
    exact alike_list hv (h.element.identified hv) fun _ _ _ _ hemitted =>
      hemitted.replaced fun _ hpart => (ih hvalue).addsItem hpart

end Triple

/-! ## Whole nodes -/

namespace Encoded

variable {codec : Codec} {root : Node}

theorem ofValue_of_settles {triples : List Triple} {subject : String}
    (h : Settles (Triple.encodeNode codec root) (triples, subject)) (allocator : IdAllocator) :
    ofValue codec (.node root) allocator = (.ok ⟨triples, some subject, []⟩, allocator) :=
  ofValue_eq_iff.2 <| Yields.bind_iff.2 ⟨_, _, h ⟨allocator, []⟩, Yields.pure_iff.2 ⟨rfl, rfl⟩⟩

theorem settles_of_ofValue (hid : (Value.node root).Identified) {allocator : IdAllocator}
    {encoded : Encoded} (h : (ofValue codec (.node root) allocator).1 = .ok encoded) :
    ∃ subject, encoded.root = some subject ∧
      Settles (Triple.encodeNode codec root) (encoded.triples, subject) := by
  obtain ⟨⟨triples, subject⟩, m, hnode, hrest⟩ :=
    Yields.bind_iff.1 (ofValue_eq_iff.1 (Prod.ext h rfl))
  obtain ⟨hresult, -⟩ := Yields.pure_iff.1 hrest
  obtain ⟨htriples, hroot⟩ := Prod.mk.inj hresult
  rw [htriples]
  exact ⟨subject, hroot, (Triple.steady_encodeObject hid hnode).2⟩

/-- What comes of a tree comes of a rearranged one, in another order. -/
theorem exists_ofValue_of_rearranged {others : Node}
    (h : (Value.node root).Rearranged (.node others)) (hid : (Value.node root).Identified)
    {α : IdAllocator} {encoded : Encoded} (hroot : (ofValue codec (.node root) α).1 = .ok encoded)
    (β : IdAllocator) : ∃ encoded', (ofValue codec (.node others) β).1 = .ok encoded' ∧
      encoded.root = encoded'.root ∧ encoded.triples.Perm encoded'.triples := by
  obtain ⟨subject, hsubject, hsettles⟩ := settles_of_ofValue hid hroot
  obtain ⟨triples, hperm, hsettles'⟩ := (Triple.alike_of_rearranged h hid).object hsettles
  exact ⟨_, congrArg Prod.fst (ofValue_of_settles hsettles' β), hsubject, hperm⟩

/-- **Stored statements do not depend on the order of keys or lists.** If every node of a tree has
an identifier, then the tree is encoded if and only if it is encoded with the keys of any nodes and
the elements of any lists in another order, whatever allocators are used; the root is then the same,
and so are the triples up to their order. -/
theorem rearranged_alike {others : Node} (h : (Value.node root).Rearranged (.node others))
    (hid : (Value.node root).Identified) (α β : IdAllocator) :
    ((∃ encoded, (ofValue codec (.node root) α).1 = .ok encoded) ↔
        ∃ encoded, (ofValue codec (.node others) β).1 = .ok encoded) ∧
      ∀ encoded encoded', (ofValue codec (.node root) α).1 = .ok encoded →
        (ofValue codec (.node others) β).1 = .ok encoded' →
          encoded.root = encoded'.root ∧ encoded.triples.Perm encoded'.triples := by
  refine ⟨⟨?_, ?_⟩, fun encoded encoded' hroot hothers => ?_⟩
  · rintro ⟨encoded, hroot⟩
    obtain ⟨encoded', hothers, -⟩ := exists_ofValue_of_rearranged h hid hroot β
    exact ⟨encoded', hothers⟩
  · rintro ⟨encoded', hothers⟩
    obtain ⟨encoded, hroot, -⟩ := exists_ofValue_of_rearranged h.symm (h.identified hid) hothers α
    exact ⟨encoded, hroot⟩
  · obtain ⟨found, hfound, hsame⟩ := exists_ofValue_of_rearranged h hid hroot β
    rw [hothers] at hfound
    obtain rfl := Except.ok.inj hfound
    exact hsame

/-- A node that holds a node and a number in a list. -/
def invitation : Node :=
  [("@id", .string "ann"),
    ("guests", .list [.node [("@id", .string "bob"), ("rank", .term "first")], .integer 3]),
    ("name", .string "Ann")]

/-- The same with the keys of both nodes and the elements of the list the other way round. -/
def invitationReversed : Node :=
  [("name", .string "Ann"),
    ("guests", .list [.integer 3, .node [("rank", .term "first"), ("@id", .string "bob")]]),
    ("@id", .string "ann")]

theorem invitation_rearranged :
    (Value.node invitation).Rearranged (.node invitationReversed) := by
  have hguest : (Value.node [("@id", .string "bob"), ("rank", .term "first")]).Rearranged
      (.node [("rank", .term "first"), ("@id", .string "bob")]) := .keys (.swap ..)
  have hguests : (Value.list [.node [("@id", .string "bob"), ("rank", .term "first")],
      .integer 3]).Rearranged
      (.list [.integer 3, .node [("rank", .term "first"), ("@id", .string "bob")]]) :=
    .trans (@Value.Rearranged.element [] _ _ _ hguest) (.elements (.swap ..))
  exact .trans (@Value.Rearranged.property [("@id", .string "ann")] _ _ _ _ hguests)
    (.keys (List.reverse_perm _).symm)

theorem rearranged_alike_invitation :
    ∃ encoded encoded', (ofValue .empty (.node invitation) (.countingFrom 7)).1 = .ok encoded ∧
      (ofValue .empty (.node invitationReversed) (.countingFrom 8)).1 = .ok encoded' ∧
      encoded.root = encoded'.root ∧ encoded.triples.Perm encoded'.triples ∧
      encoded.triples.map Triple.predicate = [":rank", ":guests", ":guests", ":name"] ∧
      encoded'.triples.map Triple.predicate = [":rank", ":name", ":guests", ":guests"] := by
  have hid : (Value.node invitation).Identified := by decide
  obtain ⟨encoded, hencoded, hpredicates⟩ : ∃ encoded,
      (ofValue .empty (.node invitation) (.countingFrom 7)).1 = .ok encoded ∧
      encoded.triples.map Triple.predicate = [":rank", ":guests", ":guests", ":name"] :=
    ⟨_, rfl, rfl⟩
  obtain ⟨encoded', hencoded', hpredicates'⟩ : ∃ encoded',
      (ofValue .empty (.node invitationReversed) (.countingFrom 8)).1 = .ok encoded' ∧
      encoded'.triples.map Triple.predicate = [":rank", ":name", ":guests", ":guests"] :=
    ⟨_, rfl, rfl⟩
  obtain ⟨hroot, hperm⟩ := (rearranged_alike invitation_rearranged hid (.countingFrom 7)
    (.countingFrom 8)).2 encoded encoded' hencoded hencoded'
  exact ⟨encoded, encoded', hencoded, hencoded', hroot, hperm, hpredicates, hpredicates'⟩

end Encoded

end LinkedData
