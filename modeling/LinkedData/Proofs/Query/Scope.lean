import LinkedData.Proofs.Query.Binding
import LinkedData.Proofs.Query.Captured

/-!
# Filters stand with their variables

The text of a filter is fixed when the filter is compiled, but the edge to its variable is written
when the node ends. Meanwhile other nodes are compiled, branches are sealed, and subjects are
replaced. In the end each filter still stands behind a triple that leads to its variable, in the
clauses that must match or in the same block, and nothing else is about the variable
(`Pattern.filters_scoped`).

The reason is that a filter variable has the number of its node. Whatever is compiled while a node
is open has other numbers, so nothing in the group is about the filters of the node until it ends
(`Pattern.Scoping.fresh`). Where subjects are replaced, neither the old nor the new one is a filter
variable, unless the caller named one.
-/

namespace LinkedData

namespace Pattern

variable {check : RegexCheck} {codec : Codec} {pattern : Node} {node low high : Nat} {edges : Edges}

/-! ## The invariant -/

/-- The group has nothing about the filters of nodes that are still to come, and each of its filters
stands behind the only triple that is about its variable. -/
structure Scoping (check : RegexCheck) (codec : Codec) (pattern : Node) (g : Group) : Prop where
  /-- no triple is about a filter of a node that has no number yet -/
  fresh : ∀ n k, g.nodeCounter ≤ n → g.uses (Group.filterVariable n k) = 0
  /-- the filters stand with their variables -/
  standing : ∀ clauses ∈ g.scopes, ∀ f, .filter f ∈ clauses → ∃ kind,
    Filters check codec pattern kind f ∧ f.Scoped kind.isInverse clauses ∧ g.uses f.token = 1

theorem scoping_empty (codec : Codec) (pattern : Node) : Scoping check codec pattern .empty where
  fresh := fun _ _ _ => rfl
  standing := by
    intro clauses hclauses f hf
    have hempty : clauses = [] := by
      simpa [Group.scopes, Group.empty] using hclauses
    rw [hempty] at hf
    cases hf

namespace Scoping

variable {g g' : Group}

/-- Filters stay with their variables when no triple is added and what holds them is changed in a
way that keeps them scoped. -/
theorem transfer (h : Scoping check codec pattern g) (hcounter : g.nodeCounter ≤ g'.nodeCounter)
    (huses : ∀ n k, g'.uses (Group.filterVariable n k) = g.uses (Group.filterVariable n k))
    (hscopes : ∀ clauses ∈ g'.scopes, ∀ f, .filter f ∈ clauses → ∃ old ∈ g.scopes,
      .filter f ∈ old ∧ ∀ inverse n k, f.token = Group.filterVariable n k →
        f.Scoped inverse old → f.Scoped inverse clauses) : Scoping check codec pattern g' where
  fresh := fun n k hn => (huses n k).trans (h.fresh n k (hcounter.trans hn))
  standing := by
    intro clauses hclauses f hf
    obtain ⟨old, hold, hmem, hkept⟩ := hscopes clauses hclauses f hf
    obtain ⟨kind, hfilters, hscoped, huse⟩ := h.standing old hold f hmem
    obtain ⟨n, k, htoken⟩ := hfilters.token
    refine ⟨kind, hfilters, hkept _ n k htoken hscoped, ?_⟩
    rw [htoken] at huse ⊢
    exact (huses n k).trans huse

/-- Where no clause changes, only the counters matter. -/
theorem of_clauses (h : Scoping check codec pattern g) (hcounter : g.nodeCounter ≤ g'.nodeCounter)
    (hclauses : g'.clauses = g.clauses) (hscopes : g'.scopes = g.scopes) :
    Scoping check codec pattern g' := by
  refine h.transfer hcounter (fun n k => by rw [Group.uses, hclauses, Group.uses]) ?_
  exact fun clauses hmem f hf => ⟨clauses, hscopes ▸ hmem, hf, fun _ _ _ _ hscoped => hscoped⟩

theorem exitOptional (h : Scoping check codec pattern g) :
    Scoping check codec pattern g.exitOptional := by
  refine h.transfer (Group.exitOptional_nodeCounter g).ge
    (fun n k => Group.uses_exitOptional g _) fun clauses hmem f hf => ?_
  refine ⟨clauses, ?_, hf, fun _ _ _ _ hscoped => hscoped⟩
  have hne : clauses ≠ [] := List.ne_nil_of_mem hf
  rw [Group.scopes, Group.exitOptional] at hmem
  split at hmem
  · simp only [List.mem_cons, List.mem_append, hne, false_or, List.not_mem_nil, or_false] at hmem
    simp only [Group.scopes, List.mem_cons]
    tauto
  · exact hmem

theorem demote (h : Scoping check codec pattern g) {number : Nat} {parent : String}
    (hsubject : ∀ subject, Group.lookupNumber? number g.nodes = some subject → NoFilter subject)
    (hparent : NoFilter parent) : Scoping check codec pattern (g.demote number parent) := by
  refine h.transfer (Group.demote_nodeCounter g number parent).ge
    (fun n k => Group.uses_demote number n k hsubject hparent) fun clauses hmem f hf => ?_
  rcases hlookup : Group.lookupNumber? number g.nodes with _ | subject
  · rw [Group.demote_of_unregistered hlookup] at hmem
    exact ⟨clauses, hmem, hf, fun _ _ _ _ hscoped => hscoped⟩
  · rw [Group.demote_eq_handedOver hlookup] at hmem
    rcases List.mem_cons.1 hmem with rfl | hmem
    · exact ⟨_, List.mem_cons_self, hf, fun _ _ _ _ hscoped => hscoped⟩
    · rcases List.mem_cons.1 hmem with rfl | hmem
      · -- the clauses that are held back, with one subject for the other
        refine ⟨g.optionalBuffer, List.mem_cons_of_mem _ List.mem_cons_self, ?_, ?_⟩
        · obtain ⟨c, hc, heq⟩ := List.mem_map.1 hf
          exact Clause.substitute_eq_filter.1 heq ▸ hc
        · exact fun _ _ _ htoken hscoped =>
            hscoped.substitute htoken (hsubject subject hlookup) hparent
      · exact ⟨clauses, List.mem_cons_of_mem _ (List.mem_cons_of_mem _ hmem), hf,
          fun _ _ _ _ hscoped => hscoped⟩

/-- A node ends: nothing was about its filters before, and now its edges are. -/
theorem close (h : Scoping check codec pattern g) (hnode : node < g.nodeCounter)
    (hunused : ∀ k, g.uses (Group.filterVariable node k) = 0)
    (hedges : edges.Binds check codec pattern node low high) :
    Scoping check codec pattern (g.append edges.clauses) where
  fresh := by
    intro n k hn
    rw [Group.append_nodeCounter] at hn
    rw [hedges.uses_append g (by omega) k]
    exact h.fresh n k hn
  standing := by
    intro clauses hclauses f hf
    -- the filters that were there before are about other nodes
    have hold : ∀ old ∈ g.scopes, .filter f ∈ old → ∃ kind, Filters check codec pattern kind f ∧
        f.Scoped kind.isInverse old ∧ (g.append edges.clauses).uses f.token = 1 := by
      intro old hmem hf
      obtain ⟨kind, hfilters, hscoped, huse⟩ := h.standing old hmem f hf
      obtain ⟨n, k, htoken⟩ := hfilters.token
      have hn : n ≠ node := by
        rintro rfl
        rw [htoken, hunused k] at huse
        cases huse
      refine ⟨kind, hfilters, hscoped, ?_⟩
      rw [htoken] at huse ⊢
      exact (hedges.uses_append g hn k).trans huse
    have hnew : f ∈ edges.filters → (g.append edges.clauses).uses f.token = 1 := by
      intro hf
      obtain ⟨kind, -, -, hcount⟩ := hedges.filters f hf
      obtain ⟨k, htoken, -, -⟩ := hedges.token hf
      rw [Group.uses_append, Edges.countP_clauses, hcount, htoken, hunused k]
    rcases Group.mem_scopes_append hclauses with hmem | ⟨old, hmem, rfl⟩
    · exact hold clauses hmem hf
    · rcases List.mem_append.1 hf with hf | hf
      · obtain ⟨kind, hfilters, hscoped, huse⟩ := hold old hmem hf
        exact ⟨kind, hfilters, hscoped.append_right _, huse⟩
      · have hf : f ∈ edges.filters := by
          simpa [Edges.clauses] using hf
        obtain ⟨kind, hfilters, hscoped⟩ := hedges.scoped hf
        exact ⟨kind, hfilters, hscoped.append_left _, hnew hf⟩

end Scoping

/-! ## The whole run -/

/-- From the first group to the second one, filters stay with their variables, and nothing is added
about the filters of earlier nodes. -/
structure Respects (check : RegexCheck) (codec : Codec) (pattern : Node) (g g' : Group) : Prop where
  /-- numbers are given away one after the other -/
  counter : g.nodeCounter ≤ g'.nodeCounter
  /-- the invariant is kept -/
  scoping : Scoping check codec pattern g → Scoping check codec pattern g'
  /-- nodes that have a number already keep their filters to themselves -/
  uses : ∀ n k, n < g.nodeCounter →
    g'.uses (Group.filterVariable n k) = g.uses (Group.filterVariable n k)

namespace Respects

variable {g g' g'' : Group}

theorem of_clauses (hcounter : g.nodeCounter ≤ g'.nodeCounter) (hclauses : g'.clauses = g.clauses)
    (hscopes : g'.scopes = g.scopes) : Respects check codec pattern g g' where
  counter := hcounter
  scoping := fun h => h.of_clauses hcounter hclauses hscopes
  uses := fun n k _ => by rw [Group.uses, hclauses, Group.uses]

theorem mints (hcounter : g.nodeCounter ≤ g'.nodeCounter) (h : g.Mints g') :
    Respects check codec pattern g g' := by
  obtain ⟨_, _, _, rfl⟩ := h
  exact of_clauses hcounter rfl rfl

theorem trans (h : Respects check codec pattern g g') (h' : Respects check codec pattern g' g'') :
    Respects check codec pattern g g'' where
  counter := h.counter.trans h'.counter
  scoping := fun hg => h'.scoping (h.scoping hg)
  uses := fun n k hn => (h'.uses n k (hn.trans_le h.counter)).trans (h.uses n k hn)

/-- A node that is compiled between its beginning and its end. -/
theorem close {entries : Node} {inverse : Bool}
    (h : Respects check codec pattern (g.opened entries inverse) g')
    (hedges : edges.Binds check codec pattern g.nodeCounter low high) :
    Respects check codec pattern g (g'.append edges.clauses) where
  counter := by
    rw [Group.append_nodeCounter]
    exact (Nat.le_succ _).trans h.counter
  scoping := fun hg => by
    have hopened : Scoping check codec pattern (g.opened entries inverse) :=
      hg.of_clauses (Nat.le_succ _) rfl rfl
    refine (h.scoping hopened).close h.counter (fun k => ?_) hedges
    exact (h.uses _ k (Nat.lt_succ_self _)).trans (hg.fresh _ k (Nat.le_refl _))
  uses := fun n k hn =>
    (hedges.uses_append g' (Nat.ne_of_lt hn) k).trans (h.uses n k (Nat.lt_succ_of_lt hn))

/-- An optional branch is handed over. -/
theorem branch {number : Nat} {parent : String}
    (h : Respects check codec pattern g.enterOptional g')
    (hsubject : ∀ subject, Group.lookupNumber? number g'.nodes = some subject → NoFilter subject)
    (hparent : NoFilter parent) :
    Respects check codec pattern g (g'.demote number parent).exitOptional where
  counter := by
    rw [Group.exitOptional_nodeCounter, Group.demote_nodeCounter]
    exact h.counter
  scoping := fun hg => by
    have hentered : Scoping check codec pattern g.enterOptional :=
      hg.of_clauses (Nat.le_refl _) rfl rfl
    exact ((h.scoping hentered).demote hsubject hparent).exitOptional
  uses := fun n k hn => by
    rw [Group.uses_exitOptional, Group.uses_demote _ _ _ hsubject hparent]
    exact h.uses n k hn

end Respects

/-- The tokens that a part is given are no filter variables. -/
def Task.Plain : Task → Prop
  | .objects _ subject d _ | .property _ subject d _ => NoFilter subject ∧ NoFilter d.predicate
  | .branch subject _ | .branches subject _ | .options subject _ | .entries _ subject _ =>
    NoFilter subject
  | .node _ _ | .object _ _ _ => True

/-- The filters of a part belong to the edges that come of it. -/
def Task.Binds (check : RegexCheck) (codec : Codec) (pattern : Node) (g g' : Group) :
    (task : Task) → task.Outcome → Prop
  | .node _ _, compiled => NoFilter compiled.subject
  | .object number inverse _, r =>
    Leads check codec pattern number (g.supply.filters number) (g'.supply.filters number) inverse r
  | .objects number _ _ _, edges | .property number _ _ _, edges | .entries number _ _, edges =>
    edges.Binds check codec pattern number (g.supply.filters number) (g'.supply.filters number)
  | .branch _ _, _ | .branches _ _, _ | .options _ _, _ => True

/-- Whatever is compiled, filters stay with their variables. -/
theorem Compiles.binds {task : Task} {g g' : Group} {r : task.Outcome}
    (h : Compiles check codec task g r g') (hreached : Reached check codec pattern task g)
    (hplain : g'.Plain) (htask : task.Plain) :
    Respects check codec pattern g g' ∧ task.Binds check codec pattern g g' r := by
  induction h with
  | @node entries inverse node vars edges g g₁ g₂ g₃ opened inner closed ih =>
    have hinner := hreached.step (.entries opened)
    obtain ⟨rfl, rfl, rfl⟩ := opened_of_yields opened
    obtain rfl := Yields.change_iff.1 closed
    have hplain := (g₂.grows_append _).plain hplain
    have hsubject := noFilter_subjectOf (inner.grows.plain hplain)
    obtain ⟨hrespects, hbinds⟩ := ih hinner hplain hsubject
    -- the node ends: what is written are its own edges, or one that leads to nothing
    refine ⟨hrespects.close (hbinds.closing fun n k hmem => ?_), hsubject⟩
    rcases Triple.mem_tokens.1 hmem with h | h | h
    · exact hsubject n k h.symm
    · exact noFilter_predicateVariable _ n k h.symm
    · exact noFilter_objectVariable _ n k h.symm
  | nested hfilter inner ih =>
    obtain ⟨hrespects, hsubject⟩ := ih (hreached.step (.node hfilter)) hplain trivial
    exact ⟨hrespects, .inl ⟨hsubject, rfl⟩⟩
  | filter hfilter run =>
    obtain ⟨kind, rfl, hholds⟩ := hreached.behind
    have hmints := mints_compileFilter run
    obtain ⟨f, body, -, -, rfl, rfl⟩ := compileFilter_spec run
    refine ⟨.mints (Nat.le_refl _) hmints,
      .inr ⟨_, kind, rfl, .behind hholds hfilter hreached run, rfl, rfl, ?_⟩⟩
    rw [Group.supply_freshFilterVariable]
    simp [Supply.filtered]
  | wildcard run =>
    exact ⟨.mints (grows_wildcardToken run).counter (mints_wildcardToken run),
      .inl ⟨noFilter_wildcardToken run hplain, rfl⟩⟩
  | scalar hscalar hliteral =>
    exact ⟨.mints (Nat.le_refl _) (.refl _),
      .inl ⟨noFilter_of_not_isVariable (not_isVariable_encodeLiteral hliteral), rfl⟩⟩
  | noItems | noEntries => exact ⟨.mints (Nat.le_refl _) (.refl _), .none _ _⟩
  | noBranches => exact ⟨.mints (Nat.le_refl _) (.refl _), trivial⟩
  | items first others ih₁ ih₂ =>
    obtain ⟨hfirst, hobject⟩ := ih₁ (hreached.step .item) (others.grows.plain hplain) trivial
    obtain ⟨hsecond, hothers⟩ := ih₂ (hreached.step (.items first.yields)) hplain htask
    exact ⟨hfirst.trans hsecond, (Edges.Binds.single htask.1 htask.2 hobject).append hothers
      (first.grows.filters _) (others.grows.filters _)⟩
  | list inner ih => exact ih (hreached.step .list) hplain htask
  | single hlist inner ih =>
    obtain ⟨hrespects, hobject⟩ := ih (hreached.step (.single hlist)) hplain trivial
    exact ⟨hrespects, .single htask.1 htask.2 hobject⟩
  | @branch subject entries compiled g g' hfilter inner ih =>
    have hplain := (g'.grows_demote compiled.node subject).plain
      ((Group.grows_exitOptional _).plain hplain)
    obtain ⟨hrespects, hsubject⟩ := ih (hreached.step (.alternative hfilter)) hplain trivial
    -- the subject that is replaced is the one under which the node was registered
    refine ⟨hrespects.branch (fun subject' hlookup => ?_) htask, trivial⟩
    rw [inner.follows.registered] at hlookup
    exact Option.some.inj hlookup ▸ hsubject
  | branches first others ih₁ ih₂ =>
    obtain ⟨hfirst, -⟩ := ih₁ (hreached.step .branch) (others.grows.plain hplain) htask
    obtain ⟨hsecond, -⟩ := ih₂ (hreached.step (.branches first.yields)) hplain htask
    exact ⟨hfirst.trans hsecond, trivial⟩
  | several inner ih => exact ih (hreached.step .several) hplain htask
  | one hlist inner ih => exact ih (hreached.step (.one hlist)) hplain htask
  | identifier hkey others ih =>
    exact ih (hreached.step (.rest (yields_compileEntry_id hkey))) hplain htask
  | optional hkey first others ih₁ ih₂ =>
    have hrest := hreached.step (.rest (yields_compileEntry_optional hkey first.yields))
    obtain ⟨hfirst, -⟩ := ih₁ (hreached.step (.options hkey)) (others.grows.plain hplain) htask
    obtain ⟨hsecond, hothers⟩ := ih₂ hrest hplain htask
    exact ⟨hfirst.trans hsecond, hothers.mono (first.grows.filters _)⟩
  | edge hkey hx turned first others ih₁ ih₂ =>
    have hhere := hreached.step (.property hkey hx turned)
    have hrest := hreached.step (.rest (yields_compileEntry_edge hkey hx turned first.yields))
    have hplain₂ := others.grows.plain hplain
    have hgrows := grows_direction hx turned
    have hpredicate := noFilter_direction hkey hx turned (first.grows.plain hplain₂)
    obtain ⟨hfirst, hbinds⟩ := ih₁ hhere hplain₂ ⟨htask, hpredicate⟩
    obtain ⟨hsecond, hothers⟩ := ih₂ hrest hplain htask
    have hturned : Respects check codec pattern _ _ :=
      .mints hgrows.counter (mints_direction hx turned)
    exact ⟨hturned.trans (hfirst.trans hsecond), (hbinds.mono (hgrows.filters _)).append hothers
      (hgrows.filters _ |>.trans (first.grows.filters _)) (others.grows.filters _)⟩

/-- **Filters stand with their variables.** When a pattern compiles whose wildcards have no
reserved names, each filter of the group comes from a node behind a key of the pattern. Exactly one
triple of the whole group is about the variable of the filter. It stands before the filter, among
the clauses that must match or in the same block, and the variable is its object, or its subject if
the key is that of an edge that is followed backwards. -/
theorem filters_scoped {check : RegexCheck} {codec : Codec} {pattern : Node} {g : Group}
    (h : compile check codec pattern = .ok g)
    (hnames : ∀ name ∈ Value.wildcardNamesEntries pattern, ¬ Reserved name) :
    ∀ clauses ∈ g.required :: g.optionalBlocks, ∀ f, .filter f ∈ clauses →
      ∃ kind, Filters check codec pattern kind f ∧
        g.clauses.countP (Clause.Mentions f.token) = 1 ∧
        ∃ before t between after,
          clauses = before ++ .triple t :: (between ++ .filter f :: after) ∧
            t.LeadsTo kind.isInverse f.token := by
  obtain ⟨compiled, hrun⟩ := yields_of_compile h
  obtain ⟨hfilter, hnode⟩ := compiles_of_compileInto hrun
  have hplain : g.Plain := by
    rintro token htoken node number rfl
    rw [tupleVariables_of_compile h, List.mem_eraseDups] at htoken
    obtain ⟨name, hname, heq⟩ := mem_names_trail codec (.node pattern) htoken
    rw [Value.wildcardNames] at hname
    exact hnames name hname ⟨.filter node number, heq.symm⟩
  obtain ⟨hrespects, -⟩ := hnode.binds (.root hfilter) hplain trivial
  intro clauses hclauses f hf
  have hscope : clauses ∈ g.scopes := by
    rcases List.mem_cons.1 hclauses with rfl | hclauses
    · exact List.mem_cons_self
    · exact List.mem_cons_of_mem _ (List.mem_cons_of_mem _ hclauses)
  obtain ⟨kind, hfilters, hscoped, huse⟩ :=
    (hrespects.scoping (scoping_empty codec pattern)).standing clauses hscope f hf
  exact ⟨kind, hfilters, huse, hscoped⟩

/-- A pattern with filters in a list, behind an edge that is followed backwards, and in a branch of
a branch. -/
def filteringPattern : Node :=
  [("age", .list [.node [("$gt", .integer 1)], .node [("$lt", .integer 9)]]),
    ("$optional", .node [("$inv_knows", .node [("$not", .string "x")]),
      ("$optional", .node [("@id", .wildcard (some "who")),
        ("name", .node [("$like", .string "a")])])])]

/-- The filter behind the edge that is followed backwards. -/
def filteringPatternFilter : BoundFilter :=
  ⟨"?F_1_0", "FILTER(!((?F_1_0 = \"x\")))"⟩

theorem filters_scoped_filteringPattern :
    (∀ name ∈ Value.wildcardNamesEntries filteringPattern, ¬ Reserved name) ∧
    ∃ g, compile .lenient .empty filteringPattern = .ok g ∧
      ∃ clauses ∈ g.optionalBlocks, .filter filteringPatternFilter ∈ clauses ∧
        ∃ kind, Filters .lenient .empty filteringPattern kind filteringPatternFilter ∧
          g.clauses.countP (Clause.Mentions "?F_1_0") = 1 ∧
          ∃ before t between after,
            clauses = before ++ .triple t :: (between ++ .filter filteringPatternFilter :: after) ∧
              t.LeadsTo kind.isInverse "?F_1_0" := by
  have hnames : ∀ name ∈ Value.wildcardNamesEntries filteringPattern, ¬ Reserved name := by
    have hsecond : ∀ name ∈ Value.wildcardNamesEntries filteringPattern,
        name.toList[1]? ≠ some '_' := by decide +kernel
    exact fun name hname => not_reserved_of_second (hsecond name hname)
  obtain ⟨g, hg, clauses, hclauses, hf⟩ := compiles_of_any .lenient .empty filteringPattern
    (p := fun g => ∃ clauses ∈ g.optionalBlocks, .filter filteringPatternFilter ∈ clauses)
    (by decide +kernel)
  exact ⟨hnames, g, hg, clauses, hclauses, hf,
    filters_scoped hg hnames clauses (List.mem_cons_of_mem _ hclauses) _ hf⟩

end Pattern

end LinkedData
