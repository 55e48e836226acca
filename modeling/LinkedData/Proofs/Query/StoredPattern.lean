import LinkedData.Proofs.Query.InStep

/-!
# A stored object as a pattern

What can be stored can be asked for. The walks that encode and compile an object stay in
step through every value, list and property, by one induction on the object; nothing in it
is left to a filter, an optional block or a named variable.

The main statement is `compile_stored`: whatever can be stored, with an edge at every node
and without null identifiers, compiles to exactly the clauses of its own triples.
-/

namespace LinkedData

open Literal

/-- Encoding and compiling agree on such a node: its identifier is not null, and it has an
edge. -/
structure Searchable (entries : Node) : Prop where
  /-- the identifier is not null -/
  identifier : identifier? entries ≠ some .null
  /-- the node has an edge -/
  edge : HasEdge entries

/-! ## What encoding rules out -/

/-- A value that can be encoded is a node or has a literal of its own. -/
theorem encodeObject_cases {codec : Codec} {key : String} {v : Value} {m m' : Mint}
    {r : List Triple × String} (h : Yields (Triple.encodeObject codec key v) m r m') :
    (∃ entries, v = .node entries) ∨
      (codec.encodeLiteral v = .ok r.2 ∧ r.1 = [] ∧ m' = m ∧ v.preorder = []) := by
  cases v with
  | node entries => exact .inl ⟨entries, rfl⟩
  | list items =>
    rw [Triple.encodeObject] at h
    exact (Yields.throw_iff.1 h).elim
  | null | boolean _ | integer _ | float _ | string _ | timestamp _ | reference _ | term _ | iri _
    | wildcard _ | custom _ _ =>
    obtain ⟨token, m₁, hl, hp⟩ := Yields.bind_iff.1 h
    obtain ⟨hok, rfl⟩ := Yields.minting_lift_iff.1 hl
    obtain ⟨rfl, rfl⟩ := Yields.pure_iff.1 hp
    exact .inr ⟨hok, rfl, rfl, by simp only [Value.preorder]⟩

/-- A value with a literal is compiled to that literal. -/
theorem compileObject_of_literal {check : RegexCheck} {codec : Codec} {v : Value} {token : String}
    (h : codec.encodeLiteral v = .ok token) (node : Nat) (inverse : Bool) (g : Group) :
    Yields (Pattern.compileObject check codec node inverse v) g (token, []) g := by
  cases v with
  | node _ | list _ | wildcard _ => cases h
  | null | boolean _ | integer _ | float _ | string _ | timestamp _ | reference _ | term _ | iri _
    | custom _ _ =>
    rw [Pattern.compileObject]
    · exact Yields.bind_iff.2 ⟨token, g, Yields.compiling_lift_iff.2 ⟨h, rfl⟩,
        Yields.pure_iff.2 ⟨rfl, rfl⟩⟩
    all_goals
      intros
      contradiction

/-- A node whose properties can be encoded is no filter: its keys are no operators. -/
theorem not_isFilter_of_encodeEntries {codec : Codec} {subject : String} {entries : Node}
    {m m' : Mint} {emitted : Triple.Emitted}
    (h : Yields (Triple.encodeEntries codec subject entries) m emitted m') :
    Filter.isFilter entries = false := by
  rw [Filter.isFilter.eq_def]
  split
  · rename_i key value
    rcases hop : FilterOp.ofKey? key with _ | op
    · rfl
    · -- an operator begins with a dollar sign, and encoding refuses such keys
      have hd : Text.startsWith "$" key = true := startsWith_of_filterOp hop
      have hid : key ≠ Vocabulary.idKey := by
        rintro rfl
        revert hd
        decide +kernel
      obtain ⟨predicate, _, _, _, hok, -⟩ := (Triple.yields_encodeEntries_cons_iff hid).1 h
      rw [(encodeKey_eq_ok hok).1] at hd
      cases hd
  · rfl

/-- A list with an element gives a triple. -/
theorem encodeItems_ne_nil {codec : Codec} {subject predicate key : String} {items : List Value}
    (hne : items ≠ []) {m m' : Mint} {emitted : Triple.Emitted}
    (h : Yields (Triple.encodeItems codec subject predicate key items) m emitted m') :
    emitted.own ≠ [] := by
  cases items with
  | nil => exact absurd rfl hne
  | cons item rest =>
    obtain ⟨before, object, after, _, -, -, rfl⟩ := Triple.yields_encodeItems_cons_iff.1 h
    exact List.cons_ne_nil _ _

/-- So does a property that holds at least one thing. -/
theorem encodeProperty_ne_nil {codec : Codec} {subject predicate key : String} {v : Value}
    (hne : v ≠ .list []) {m m' : Mint} {emitted : Triple.Emitted}
    (h : Yields (Triple.encodeProperty codec subject predicate key v) m emitted m') :
    emitted.own ≠ [] := by
  rw [Triple.encodeProperty.eq_def] at h
  split at h
  · rename_i items
    refine encodeItems_ne_nil (fun h0 => hne ?_) h
    rw [h0]
  · obtain ⟨⟨before, object⟩, m₁, -, h⟩ := Yields.bind_iff.1 h
    obtain ⟨rfl, -⟩ := Yields.pure_iff.1 h
    exact List.cons_ne_nil _ _

/-- A node with an edge has a triple of its own. -/
theorem encodeEntries_ne_nil {codec : Codec} {subject : String} {entries : Node}
    (hedge : HasEdge entries) {m m' : Mint} {emitted : Triple.Emitted}
    (h : Yields (Triple.encodeEntries codec subject entries) m emitted m') :
    emitted.own ≠ [] := by
  induction entries generalizing m emitted with
  | nil =>
    obtain ⟨entry, hmem, -⟩ := hedge
    cases hmem
  | cons entry rest ih =>
    obtain ⟨key, value⟩ := entry
    obtain ⟨other, hmem, hid, hne⟩ := hedge
    by_cases hkey : key = Vocabulary.idKey
    · subst hkey
      rw [Triple.encodeEntries_id] at h
      rcases List.mem_cons.1 hmem with rfl | hmem
      · exact absurd rfl hid
      · exact ih ⟨other, hmem, hid, hne⟩ h
    · obtain ⟨predicate, here, after, _, -, hhere, hafter, rfl⟩ :=
        (Triple.yields_encodeEntries_cons_iff hkey).1 h
      intro hnil
      obtain ⟨hhere_nil, hafter_nil⟩ := List.append_eq_nil_iff.1 hnil
      rcases List.mem_cons.1 hmem with rfl | hmem
      · exact encodeProperty_ne_nil hne hhere hhere_nil
      · exact ih ⟨other, hmem, hid, hne⟩ hafter hafter_nil

/-! ## The walks -/

section

variable {check : RegexCheck} {codec : Codec}

mutual

/-- Encoding a value that may stand behind an edge, and compiling it. -/
theorem compileObject_inStep {key : String} :
    ∀ (v : Value) ⦃m m' : Mint⦄ ⦃r : List Triple × String⦄, (∀ n ∈ v.preorder, Searchable n) →
    Yields (Triple.encodeObject codec key v) m r m' →
    ∀ (node : Nat) (inverse : Bool) (g : Group), g.optionalDepth = 0 →
    ∃ filling token clauses g',
      Yields (Pattern.compileObject check codec node inverse v) g (token, []) g' ∧
      InStep v.preorder m m' g g' filling clauses r.1 ∧
      ∀ f, Fills f filling → f token = r.2
  | v => by
    intro m m' r hs h node inverse g hg
    rcases encodeObject_cases h with ⟨entries, rfl⟩ | ⟨hl, hr, rfl, hv⟩
    · obtain ⟨hfilter, filling, token, clauses, g', hnode, hstep, htoken⟩ :=
        compileNode_inStep entries hs h inverse g hg
      refine ⟨filling, token, clauses, g', ?_, hstep, htoken⟩
      rw [Pattern.compileObject_node check codec node inverse hfilter]
      refine Yields.bind_iff.2 ⟨_, g', hnode, ?_⟩
      exact Yields.pure_iff.2 ⟨rfl, rfl⟩
    · refine ⟨[], r.2, [], g, compileObject_of_literal hl node inverse g, ?_, ?_⟩
      · rw [hv, hr]
        exact .refl m' g
      · intro f hf
        exact hf.2 _ (not_isVariable_encodeLiteral hl)
termination_by v => (sizeOf v, 0)

/-- Encoding a node, and compiling it. It is no filter. -/
theorem compileNode_inStep {key : String} :
    ∀ (entries : List (String × Value)) ⦃m m' : Mint⦄ ⦃r : List Triple × String⦄,
    (∀ n ∈ (Value.node entries).preorder, Searchable n) →
    Yields (Triple.encodeObject codec key (.node entries)) m r m' →
    ∀ (inverse : Bool) (g : Group), g.optionalDepth = 0 →
    Filter.isFilter entries = false ∧ ∃ filling token clauses g',
      Yields (Pattern.compileNode check codec entries inverse) g ⟨g.nodeCounter, token⟩ g' ∧
      InStep (Value.node entries).preorder m m' g g' filling clauses r.1 ∧
      ∀ f, Fills f filling → f token = r.2
  | entries => by
    intro m m' r hs h inverse g hg
    obtain ⟨root, emitted, m₁, hroot, hemit, rfl⟩ := Triple.yields_encodeNode_iff.1 h
    obtain ⟨hnode, hbelow⟩ := List.forall_mem_cons.1 hs
    obtain ⟨p, vars, g₁, hopen, hp, hsubject⟩ :=
      openNode_of_subjectOf codec hnode.identifier hroot g inverse
    obtain ⟨q, edges, cs, g₂, hedges, hq, hown⟩ :=
      compileEntries_inStep entries hbelow hemit g.nodeCounter vars.subject g₁ (hp.depth.trans hg)
    have hboth := hp.trans hq
    have hroot_filled : ∀ f, Fills f (p ++ q) → f vars.subject = root := by
      intro f hf
      exact hsubject f hf.left
    -- a node with an edge needs no arbitrary triple, so closing it adds the edges alone
    obtain ⟨g₃, hclose, hstep⟩ := hboth.close
      ((EdgesInStep.none p vars.subject root).append hown) hroot_filled
      (encodeEntries_ne_nil hnode.edge hemit) hg
    refine ⟨not_isFilter_of_encodeEntries hemit, p ++ q, vars.subject, _, g₃, ?_, hstep,
      hroot_filled⟩
    refine Yields.bind_iff.2 ⟨_, g₁, hopen, ?_⟩
    refine Yields.bind_iff.2 ⟨edges, g₂, hedges, ?_⟩
    refine Yields.bind_iff.2 ⟨(), g₃, hclose, ?_⟩
    exact Yields.pure_iff.2 ⟨rfl, rfl⟩
termination_by entries => (sizeOf entries, 1)

/-- Encoding the elements of a list, and compiling them. -/
theorem compileObjects_inStep {root predicate key : String}
    (hp : isVariable predicate = false) : ∀ (items : List Value) ⦃m m' : Mint⦄
    ⦃emitted : Triple.Emitted⦄, (∀ n ∈ Value.preorderItems items, Searchable n) →
    Yields (Triple.encodeItems codec root predicate key items) m emitted m' →
    ∀ (node : Nat) (subject : String) (g : Group), g.optionalDepth = 0 →
    ∃ filling edges clauses g',
      Yields (Pattern.compileObjects check codec node subject ⟨predicate, false⟩ items) g edges g' ∧
      InStep (Value.preorderItems items) m m' g g' filling clauses emitted.nested ∧
      EdgesInStep filling subject root edges emitted.own
  | [] => by
    intro m m' emitted hs h node subject g hg
    obtain ⟨rfl, rfl⟩ := Yields.pure_iff.1 h
    exact ⟨[], .none, [], g, Yields.pure_iff.2 ⟨rfl, rfl⟩, .refl m' g, .none [] subject root⟩
  | item :: rest => by
    intro m m' emitted hs h node subject g hg
    obtain ⟨before, object, after, m₁, hitem, hrest, rfl⟩ :=
      Triple.yields_encodeItems_cons_iff.1 h
    obtain ⟨p, token, cs, g₁, hobject, hfirst, htoken⟩ :=
      compileObject_inStep item (fun n hn => hs n (List.mem_append_left _ hn)) hitem node false g hg
    obtain ⟨q, edges, ds, g₂, hedges, hothers, hown⟩ :=
      compileObjects_inStep hp rest (fun n hn => hs n (List.mem_append_right _ hn)) hrest node
        subject g₁ (hfirst.depth.trans hg)
    refine ⟨p ++ q, _, cs ++ ds, g₂, ?_, hfirst.trans hothers,
      (EdgesInStep.single hp htoken).append hown⟩
    rw [Pattern.compileObjects]
    refine Yields.bind_iff.2 ⟨_, g₁, hobject, ?_⟩
    refine Yields.bind_iff.2 ⟨edges, g₂, hedges, ?_⟩
    exact Yields.pure_iff.2 ⟨rfl, rfl⟩
termination_by items => (sizeOf items, 0)

/-- Encoding what one property holds, and compiling it. -/
theorem compileProperty_inStep {root predicate key : String}
    (hp : isVariable predicate = false) : ∀ (v : Value) ⦃m m' : Mint⦄ ⦃emitted : Triple.Emitted⦄,
    (∀ n ∈ v.preorder, Searchable n) →
    Yields (Triple.encodeProperty codec root predicate key v) m emitted m' →
    ∀ (node : Nat) (subject : String) (g : Group), g.optionalDepth = 0 →
    ∃ filling edges clauses g',
      Yields (Pattern.compileProperty check codec node subject ⟨predicate, false⟩ v) g edges g' ∧
      InStep v.preorder m m' g g' filling clauses emitted.nested ∧
      EdgesInStep filling subject root edges emitted.own
  | v => by
    intro m m' emitted hs h node subject g hg
    rw [Triple.encodeProperty.eq_def] at h
    rw [Pattern.compileProperty.eq_def]
    split at h
    · exact compileObjects_inStep hp _ hs h node subject g hg
    · obtain ⟨⟨before, object⟩, m₁, hitem, h⟩ := Yields.bind_iff.1 h
      obtain ⟨rfl, rfl⟩ := Yields.pure_iff.1 h
      obtain ⟨p, token, cs, g₁, hobject, hstep, htoken⟩ :=
        compileObject_inStep v hs hitem node false g hg
      refine ⟨p, _, cs, g₁, ?_, hstep, EdgesInStep.single hp htoken⟩
      exact Yields.bind_iff.2 ⟨_, g₁, hobject, Yields.pure_iff.2 ⟨rfl, rfl⟩⟩
termination_by v => (sizeOf v, 1)

/-- Encoding the properties of a node, and compiling them. -/
theorem compileEntries_inStep {root : String} :
    ∀ (entries : List (String × Value)) ⦃m m' : Mint⦄ ⦃emitted : Triple.Emitted⦄,
    (∀ n ∈ Value.preorderEntries entries, Searchable n) →
    Yields (Triple.encodeEntries codec root entries) m emitted m' →
    ∀ (node : Nat) (subject : String) (g : Group), g.optionalDepth = 0 →
    ∃ filling edges clauses g',
      Yields (Pattern.compileEntries check codec node subject entries) g edges g' ∧
      InStep (Value.preorderEntries entries) m m' g g' filling clauses emitted.nested ∧
      EdgesInStep filling subject root edges emitted.own
  | [] => by
    intro m m' emitted hs h node subject g hg
    obtain ⟨rfl, rfl⟩ := Yields.pure_iff.1 h
    exact ⟨[], .none, [], g, Yields.pure_iff.2 ⟨rfl, rfl⟩, .refl m' g, .none [] subject root⟩
  | (key, value) :: rest => by
    intro m m' emitted hs h node subject g hg
    rw [Pattern.compileEntries_cons, Pattern.compileEntry]
    by_cases hid : key = Vocabulary.idKey
    · -- neither walk takes the identifier for a property
      subst hid
      rw [Triple.encodeEntries_id] at h
      rw [Value.preorderEntries, if_pos rfl] at hs ⊢
      obtain ⟨q, edges, ds, g₂, hedges, hothers, hown⟩ :=
        compileEntries_inStep rest hs h node subject g hg
      refine ⟨q, edges, ds, g₂, ?_, hothers, hown⟩
      refine Yields.bind_iff.2 ⟨.none, g, ?_, ?_⟩
      · exact Yields.bind_iff.2 ⟨.id, g, Yields.compiling_lift_iff.2 ⟨if_pos rfl, rfl⟩,
          Yields.pure_iff.2 ⟨rfl, rfl⟩⟩
      · refine Yields.bind_iff.2 ⟨edges, g₂, hedges, ?_⟩
        exact Yields.pure_iff.2 ⟨rfl, rfl⟩
    · obtain ⟨predicate, here, after, m₁, hok, hhere, hrest, rfl⟩ :=
        (Triple.yields_encodeEntries_cons_iff hid).1 h
      rw [Value.preorderEntries, if_neg hid] at hs ⊢
      obtain ⟨p, edges, cs, g₁, hedges, hfirst, hown⟩ :=
        compileProperty_inStep (not_isVariable_encodeTerm (encodeKey_eq_ok hok).2.2) value
          (fun n hn => hs n (List.mem_append_left _ hn)) hhere node subject g hg
      obtain ⟨q, others, ds, g₂, hothers, hlast, hownLast⟩ :=
        compileEntries_inStep rest (fun n hn => hs n (List.mem_append_right _ hn)) hrest node
          subject g₁ (hfirst.depth.trans hg)
      refine ⟨p ++ q, _, cs ++ ds, g₂, ?_, hfirst.trans hlast, hown.append hownLast⟩
      refine Yields.bind_iff.2 ⟨edges, g₁, ?_, ?_⟩
      · exact Yields.bind_iff.2 ⟨.property predicate, g,
          Yields.compiling_lift_iff.2 ⟨resolve_of_encodeKey hok, rfl⟩, hedges⟩
      · refine Yields.bind_iff.2 ⟨others, g₂, hothers, ?_⟩
        exact Yields.pure_iff.2 ⟨rfl, rfl⟩
termination_by entries => (sizeOf entries, 0)

end

end

/-! ## Filling in the minted identifiers -/

/-- The subject variable of each anonymous node of a value, and the locator minted for it. -/
def subjectFilling (v : Value) (minted : List Reference) : Fields String :=
  ((anonymousFrom 0 v.preorder).zip minted).map fun pair =>
    (Group.subjectVariable pair.1, bracketed pair.2.locator)

/-- Put the minted locators in the place of the subject variables. -/
def fillSubjects (v : Value) (minted : List Reference) (token : String) : String :=
  ((subjectFilling v minted).get? token).getD token

theorem subjectFilling_eq {v : Value} {filling : List (Nat × Reference)}
    (h : filling.map Prod.fst = anonymousFrom 0 v.preorder) :
    subjectFilling v (filling.map Prod.snd) =
      filling.map fun pair => (Group.subjectVariable pair.1, bracketed pair.2.locator) := by
  rw [subjectFilling, ← List.zip_of_prod h rfl]

theorem distinct_subjectFilling {v : Value} {filling : List (Nat × Reference)}
    (h : filling.map Prod.fst = anonymousFrom 0 v.preorder) :
    (subjectFilling v (filling.map Prod.snd)).Distinct := by
  have hnames : (subjectFilling v (filling.map Prod.snd)).names =
      (anonymousFrom 0 v.preorder).map Group.subjectVariable := by
    rw [subjectFilling_eq h, Fields.names, List.map_map, ← h, List.map_map]
    rfl
  rw [Fields.Distinct, hnames]
  refine List.Pairwise.map Group.subjectVariable ?_ (nodup_anonymousFrom 0 v.preorder)
  intro a b hne heq
  exact hne (subjectVariable_injective heq)

theorem fills_fillSubjects {v : Value} {filling : List (Nat × Reference)}
    (h : filling.map Prod.fst = anonymousFrom 0 v.preorder) :
    Fills (fillSubjects v (filling.map Prod.snd)) filling := by
  constructor
  · intro pair hpair
    have hmem : (Group.subjectVariable pair.1, bracketed pair.2.locator) ∈
        subjectFilling v (filling.map Prod.snd) := by
      rw [subjectFilling_eq h]
      exact List.mem_map_of_mem hpair
    rw [fillSubjects, (distinct_subjectFilling h).get?_of_mem hmem, Option.getD_some]
  · intro token htoken
    have hnone : (subjectFilling v (filling.map Prod.snd)).get? token = none := by
      rw [Fields.get?_eq_none_iff]
      intro hmem
      obtain ⟨entry, hentry, rfl⟩ := List.mem_map.1 hmem
      obtain ⟨pair, -, rfl⟩ := List.mem_map.1 hentry
      exact ne_subjectVariable htoken pair.1 rfl
    rw [fillSubjects, hnone, Option.getD_none]

/-! ## Stored objects as patterns -/

/-- A successful encoding of a node is a run of the walk over it. -/
theorem yields_of_ofValue {codec : Codec} {entries : Node} {allocator : IdAllocator}
    {encoded : Encoded} (h : (Encoded.ofValue codec (.node entries) allocator).1 = .ok encoded) :
    ∃ r m, Yields (Triple.encodeObject codec "" (.node entries)) ⟨allocator, []⟩ r m ∧
      encoded = ⟨r.1, some r.2, m.minted⟩ := by
  rw [Encoded.ofValue] at h
  rcases hrun : (Encoded.build codec (.node entries)).run ⟨allocator, []⟩ with ⟨_ | ⟨ts, root⟩, m⟩
  · rw [hrun] at h
    cases h
  · rw [hrun] at h
    obtain rfl := Except.ok.inj h
    obtain ⟨r, m₁, hencode, hend⟩ := Yields.bind_iff.1 hrun
    obtain ⟨hpair, rfl⟩ := Yields.pure_iff.1 hend
    cases hpair
    exact ⟨r, m, hencode, rfl⟩

/-- A pattern that is no filter is compiled like any other node. -/
theorem compile_of_compileNode {check : RegexCheck} {codec : Codec} {entries : Node}
    {compiled : CompiledNode} {group : Group} (hfilter : Filter.isFilter entries = false)
    (h : Yields (Pattern.compileNode check codec entries false) .empty compiled group) :
    Pattern.compile check codec entries = .ok group := by
  rw [← Pattern.compileInto_eq check codec hfilter, Yields] at h
  rw [Pattern.compile, h]
  rfl

/-- **A stored object finds itself.** If a node can be encoded, and every node in it has an
edge and no null identifier, then it compiles as a pattern: to clauses that must match and
are, in the same order, its own triples with variables for the minted identifiers, of which
each anonymous node has one. There is no filter, no optional block and no named variable. -/
theorem compile_stored (check : RegexCheck) (codec : Codec) (entries : Node)
    (allocator : IdAllocator) {encoded : Encoded}
    (h : (Encoded.ofValue codec (.node entries) allocator).1 = .ok encoded)
    (hs : ∀ n ∈ (Value.node entries).preorder, Searchable n) :
    ∃ group, Pattern.compile check codec entries = .ok group ∧
      encoded.allocated.length = (anonymousFrom 0 (Value.node entries).preorder).length ∧
      group.required.map (Clause.mapTokens (fillSubjects (.node entries) encoded.allocated)) =
        encoded.triples.map .triple ∧
      (∀ f, Clause.filter f ∉ group.required) ∧
      group.optionalBlocks = [] ∧ group.tupleVariables = [] := by
  obtain ⟨r, m, hencode, rfl⟩ := yields_of_ofValue h
  obtain ⟨hfilter, filling, token, clauses, group, hcompile, hstep, -⟩ :=
    compileNode_inStep entries hs hencode false .empty rfl
  have hminted : m.minted = filling.map Prod.snd := by
    rw [hstep.minted, List.nil_append]
  have hrequired : group.required = clauses := by
    rw [hstep.required]
    rfl
  have hfilled := hstep.filled _ (fills_fillSubjects hstep.numbers)
  refine ⟨group, compile_of_compileNode hfilter hcompile, ?_, ?_, ?_, hstep.blocks,
    hstep.tuples⟩
  · rw [hminted, List.length_map, ← List.length_map Prod.fst, hstep.numbers]
    rfl
  · rw [hrequired, hminted]
    exact hfilled
  · intro f hf
    rw [hrequired] at hf
    have hmem : Clause.filter f ∈ r.1.map Clause.triple := by
      rw [← hfilled]
      exact List.mem_map.2 ⟨_, hf, rfl⟩
    obtain ⟨t, -, ht⟩ := List.mem_map.1 hmem
    cases ht

/-- Five nodes, all but one of them anonymous. -/
def acquaintances : Node :=
  [("knows", .list [.node [("name", .string "Ann")],
      .node [("@id", .string "b"), ("age", .integer 3)]]),
    ("friend", .node [("knows", .node [("name", .null)])])]

theorem compile_stored_acquaintances :
    ∃ encoded, (Encoded.ofValue .empty (.node acquaintances) (.countingFrom 7)).1 = .ok encoded ∧
      (∀ n ∈ (Value.node acquaintances).preorder, Searchable n) ∧
      ∃ group, Pattern.compile .lenient .empty acquaintances = .ok group ∧
        encoded.allocated.length = 4 ∧
        group.required.map
          (Clause.mapTokens (fillSubjects (.node acquaintances) encoded.allocated)) =
          encoded.triples.map .triple ∧
        (∀ f, Clause.filter f ∉ group.required) ∧
        group.optionalBlocks = [] ∧ group.tupleVariables = [] := by
  have hedge : ∀ {key : String} {value : Value} {rest : Node}, key ≠ Vocabulary.idKey →
      value ≠ .list [] → HasEdge ((key, value) :: rest) :=
    fun hid hne => ⟨_, List.mem_cons_self, hid, hne⟩
  have hs : ∀ n ∈ (Value.node acquaintances).preorder, Searchable n := by
    refine List.forall_mem_cons.2 ⟨⟨nofun, hedge (by decide) nofun⟩, ?_⟩
    refine List.forall_mem_cons.2 ⟨⟨nofun, hedge (by decide) nofun⟩, ?_⟩
    refine List.forall_mem_cons.2 ⟨⟨nofun, ⟨_, .tail _ (.head _), by decide, nofun⟩⟩, ?_⟩
    refine List.forall_mem_cons.2 ⟨⟨nofun, hedge (by decide) nofun⟩, ?_⟩
    refine List.forall_mem_cons.2 ⟨⟨nofun, hedge (by decide) nofun⟩, ?_⟩
    exact fun n hn => absurd hn List.not_mem_nil
  exact ⟨_, rfl, hs, compile_stored .lenient .empty acquaintances (.countingFrom 7) rfl hs⟩

end LinkedData
