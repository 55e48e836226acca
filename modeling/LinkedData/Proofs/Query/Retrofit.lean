import LinkedData.Proofs.Query.Below

/-!
# Optional branches as continuations

An optional branch is compiled as a node of its own, and only then made a continuation of
the node that holds it. The alternative is to compile its entries for that node in the first
place (`continueBranch`). For a branch without an identifier the two agree: the group with the
branch as a node of its own, and the group without it, stay in step to the end.

There is one exception. Demoting a branch replaces its subject in the whole open block. If the
branch lists a branch of its own first, and later a node that joins a branch identified by the
subject of the parent, then the clauses that were written for the parent by then are handed to
that node; as long as they are written for the branch itself, they are not
(`retrofit_differs_for_moved_parent`).
-/

namespace LinkedData

namespace Pattern

open Compiling

/-- Compile an optional branch for the node that holds it. The branch takes a number, but is
neither registered nor described. -/
def continueBranch (check : RegexCheck) (codec : Codec) (subject : String) (entries : Node) :
    Compiling Unit := do
  if Filter.isFilter entries then throw (.invalidFilter .optionalFilter)
  change Group.enterOptional
  let node ← step Group.nextNodeId
  let edges ← compileEntries check codec node subject entries
  closeNode ⟨subject, Group.predicateVariable node, Group.objectVariable node⟩ edges
  change Group.exitOptional

/-! ## Before the node is mentioned -/

section

variable {α β : Type} {n : Nat} {g : Group}

/-- Parts that match whatever cannot be named match everything, as long as the open block does
not mention the node; and it still does not mention it afterwards. -/
theorem Matches.of_bare {rename : α → β} {x : Compiling α} {y : Compiling β}
    (h : ∀ image, Unnamed image → Settled g.nodeCounter image →
      Matches n image rename x y g (Still image))
    (hn : n < g.nodeCounter) (hbare : g.Bare n) (target : String) :
    Matches n target rename x y g (Still target) ∧
      ∀ a g', Yields x g a g' → g'.Bare n := by
  have hself := h (Group.subjectVariable n) (unnamed_subjectVariable n) (settled_subjectVariable hn)
  have hempty := h "" unnamed_empty
    ((noSubject_of_not_isVariable (by decide +kernel)).settled _)
  rw [Matches] at hself hempty ⊢
  rcases hx : x.run g with ⟨e | a, g'⟩
  · rw [hx] at hself
    refine ⟨?_, fun a g'' hy => ?_⟩
    · rw [hbare target (Group.subjectVariable n)]
      exact hself
    · rw [Yields, hx] at hy
      cases hy
  · rw [hx] at hself hempty
    obtain ⟨image, rfl, hself⟩ := hself
    obtain ⟨image', rfl, hempty⟩ := hempty
    have hbare' : g'.Bare n := by
      refine Group.bare_of_dissolve_eq ?_
      rw [hbare (Group.subjectVariable n) "", hempty] at hself
      exact (Prod.mk.inj hself).2.symm
    refine ⟨⟨target, rfl, ?_⟩, fun a g'' hy => ?_⟩
    · rw [hbare target (Group.subjectVariable n), hself, hbare' target (Group.subjectVariable n)]
    · rw [Yields, hx] at hy
      cases hy
      exact hbare'

end

/-! ## The entries of the branch -/

theorem replaceToken_new (old new : String) : Triple.replaceToken old new new = new := by
  rw [Triple.replaceToken]
  split
  · rfl
  · rfl

theorem replaceToken_old (old new : String) : Triple.replaceToken old new old = new :=
  if_pos rfl

section

variable {check : RegexCheck} {codec : Codec} {n : Nat} {parent : String}

/-- A node below a branch of the branch. Demoting it restores the image of the open node. -/
theorem innerNode_matches {entries : Node} {g : Group} (hcont : Continuing n g)
    (hnames : Unambiguous (Value.wildcardNamesEntries entries))
    (hparent : Settled g.nodeCounter parent)
    (hkeeps : g.Bare n ∨ (Value.node entries).KeepsBranch [parent]) :
    Matches n parent id (compileNode check codec entries false)
      (compileNode check codec entries false) g
      fun compiled image => Triple.replaceToken compiled.subject parent image = parent := by
  rcases hkeeps with hbare | hkeeps
  · have hstill : ∀ image, Unnamed image → Settled g.nodeCounter image →
        Matches n image id (compileNode check codec entries false)
          (compileNode check codec entries false) g
          (Still image) := by
      intro image hun hs
      have hsecure : Secure [] image (Value.KeepsEntries [] entries) := .inl hun
      refine (compileNode_matches entries hcont hnames hs hsecure fun hj =>
        absurd hj (hun.not_joins hnames)).mono fun _ _ image' _ hmoved => ?_
      rcases hmoved with rfl | ⟨-, hj⟩
      · rfl
      · exact absurd hj (hun.not_joins hnames)
    refine (Matches.of_bare hstill hcont.number hbare parent).1.mono fun _ _ image _ himage => ?_
    obtain rfl : image = parent := himage
    exact replaceToken_new _ _
  · rw [Value.KeepsBranch] at hkeeps
    have hmem : parent ∈ [parent] := List.mem_singleton_self parent
    have hsecure : Secure (tokensInside [parent] entries) parent
        (Value.KeepsEntries (tokensInside [parent] entries) entries) :=
      .inr ⟨mem_tokensInside hmem entries, hkeeps⟩
    refine (compileNode_matches entries hcont hnames hparent hsecure
      fun hjoins _ htoken => htoken.mem_tokensInside hmem hjoins).mono
      fun _ _ image _ hmoved => ?_
    rcases hmoved with rfl | ⟨rfl, -⟩
    · exact replaceToken_new _ _
    · exact replaceToken_old _ _

/-- A branch of the branch. -/
theorem innerBranch_matches {v : Value} {g : Group} (hcont : Continuing n g)
    (hnames : Unambiguous v.wildcardNames) (hparent : Settled g.nodeCounter parent)
    (hkeeps : g.Bare n ∨ v.KeepsBranch [parent]) :
    Matches n parent id (compileBranch check codec (Group.subjectVariable n) v)
      (compileBranch check codec parent v) g (Still parent) := by
  rcases v.node_or_not with ⟨entries, rfl⟩ | hnode
  · rw [Value.wildcardNames] at hnames
    rcases hfilter : Filter.isFilter entries with _ | _
    · have hcont₁ : Continuing n g.enterOptional := ⟨Nat.succ_pos _, hcont.number⟩
      have hkeeps₁ : g.enterOptional.Bare n ∨ (Value.node entries).KeepsBranch [parent] := by
        refine hkeeps.imp_left fun hbare image image' => ?_
        have heq := congrArg Group.enterOptional (hbare image image')
        exact heq
      apply demoted_matches hcont hnames hfilter
      refine (innerNode_matches hcont₁ hnames hparent hkeeps₁).mono
        fun compiled _ image _ himage => ?_
      rw [himage]
      exact ⟨dissolved_subjectVariable n parent, rfl⟩
    · rw [compileBranch_filter check codec _ hfilter, compileBranch_filter check codec _ hfilter]
      exact .throw _ g
  · rw [compileBranch_other check codec _ hnode, compileBranch_other check codec _ hnode]
    exact .throw _ g

theorem innerBranches_matches {branches : List Value} {g : Group} (hcont : Continuing n g)
    (hnames : Unambiguous (Value.wildcardNamesItems branches)) (hparent : Settled n parent)
    (hkeeps : Value.KeepsBranches [parent] branches) :
    Matches n parent id (compileBranches check codec (Group.subjectVariable n) branches)
      (compileBranches check codec parent branches) g (Still parent) := by
  induction branches generalizing g with
  | nil =>
    rw [compileBranches, compileBranches]
    exact .pure_still rfl g
  | cons branch rest ih =>
    rw [Value.wildcardNamesItems] at hnames
    rw [Value.KeepsBranches] at hkeeps
    rw [compileBranches, compileBranches]
    refine (innerBranch_matches hcont hnames.left (hparent.mono (Nat.le_of_lt hcont.number))
      (.inr hkeeps.1)).bind_still fun _ g₁ hbranch => ?_
    have hadv := advances_compileBranch branch hnames.left
      (settled_subjectVariable hcont.number) hbranch
    exact ih (hcont.advance hadv) hnames.right hkeeps.2

/-- What an optional key of the branch holds. Before the node is mentioned, the first one of
several branches may do as it likes. -/
theorem innerOptional_matches {v : Value} {g : Group} (hcont : Continuing n g)
    (hnames : Unambiguous v.wildcardNames) (hparent : Settled n parent)
    (hkeeps : (g.Bare n ∧ KeepsBehindFirst parent v) ∨ v.KeepsBranch [parent]) :
    Matches n parent id (compileOptional check codec (Group.subjectVariable n) v)
      (compileOptional check codec parent v) g (Still parent) := by
  have himage : Settled g.nodeCounter parent := hparent.mono (Nat.le_of_lt hcont.number)
  rw [compileOptional.eq_def, compileOptional.eq_def]
  split
  · rename_i branches
    rw [Value.wildcardNames] at hnames
    rcases hkeeps with ⟨hbare, hothers⟩ | hkeeps
    · cases branches with
      | nil =>
        rw [compileBranches, compileBranches]
        exact .pure_still rfl g
      | cons branch rest =>
        rw [Value.wildcardNamesItems] at hnames
        rw [compileBranches, compileBranches]
        refine (innerBranch_matches hcont hnames.left himage (.inl hbare)).bind_still
          fun _ g₁ hbranch => ?_
        have hadv := advances_compileBranch branch hnames.left
          (settled_subjectVariable hcont.number) hbranch
        exact innerBranches_matches (hcont.advance hadv) hnames.right hparent hothers
    · rw [Value.KeepsBranch] at hkeeps
      exact innerBranches_matches hcont hnames hparent hkeeps
  · exact innerBranch_matches hcont hnames himage (hkeeps.imp_left And.left)

/-- One entry of the branch that is an edge. -/
theorem innerEdge_matches {node : Nat} {key : String} {value : Value} {g : Group}
    {kind : PatternKey} {x : Compiling Direction} {image : String} {tokens : List String}
    (hcont : Continuing n g) (hnames : Unambiguous (keyNames key ++ value.wildcardNames))
    (hresolve : PatternKey.resolve key = .ok kind) (hx : direction? kind = some x)
    (himage : Settled g.nodeCounter image) (hsecure : Secure tokens image (value.Keeps tokens)) :
    Matches n image (Edges.dissolve n parent)
      (compileKey check codec node (Group.subjectVariable n) key value kind)
      (compileKey check codec node parent key value kind) g (Still image) := by
  rw [compileKey_direction check codec node _ key value hx,
    compileKey_direction check codec node _ key value hx]
  refine (direction_matches hx).bind_still fun d g₁ hd => ?_
  obtain ⟨hadv, hp⟩ := advances_direction hnames.left hresolve hx hd
  exact compileProperty_matches value (hcont.advance hadv) hnames.right
    (himage.mono hadv.counter) hsecure hp (redirects_dissolve n parent)

/-- Before the entries the node is not mentioned yet, and what comes behind the first branch keeps
the parent; or all entries keep it. -/
def Carries (n : Nat) (parent : String) (g : Group) (entries : List (String × Value)) : Prop :=
  (g.Bare n ∧ KeepsBehindBranch parent entries) ∨ Value.KeepsEntries [parent] entries

/-- An entry, compiled by the kind of its key for the open node and for the parent. -/
structure EntryMatches (check : RegexCheck) (codec : Codec) (n : Nat) (parent : String) (node : Nat)
    (key : String) (value : Value) (kind : PatternKey) (rest : List (String × Value))
    (g : Group) : Prop where
  /-- both stay in step -/
  here : Matches n parent (Edges.dissolve n parent)
    (compileKey check codec node (Group.subjectVariable n) key value kind)
    (compileKey check codec node parent key value kind) g (Still parent)
  /-- and so can the entries behind it -/
  behind : ∀ edges g', Yields (compileKey check codec node (Group.subjectVariable n) key value kind)
    g edges g' → Carries n parent g' rest

variable {node : Nat} {key : String} {value : Value} {rest : List (String × Value)} {g : Group}

/-- An entry that holds branches. -/
theorem innerOptionalKey_matches (hcont : Continuing n g)
    (hnames : Unambiguous value.wildcardNames) (hparent : Settled n parent)
    (hcarries : Carries n parent g ((PatternKey.optionalKey, value) :: rest)) :
    EntryMatches check codec n parent node PatternKey.optionalKey value .optional rest g := by
  have hhere : (g.Bare n ∧ KeepsBehindFirst parent value) ∨ value.KeepsBranch [parent] →
      Matches n parent (Edges.dissolve n parent)
        (compileKey check codec node (Group.subjectVariable n) PatternKey.optionalKey value
          .optional)
        (compileKey check codec node parent PatternKey.optionalKey value .optional) g
        (Still parent) :=
    fun hvalue => (innerOptional_matches hcont hnames hparent hvalue).bind_still
      fun _ g₁ _ => .pure_still rfl g₁
  rw [Carries, Value.KeepsEntries, if_pos rfl] at hcarries
  rcases hcarries with ⟨hbare, hbehind⟩ | ⟨hvalue, hrest⟩
  · rcases hbehind.of_optional with ⟨rfl, hrest⟩ | ⟨hothers, hrest⟩
    · refine ⟨hhere (.inl ⟨hbare, trivial⟩), fun edges g' h => .inl ⟨?_, hrest⟩⟩
      -- no branch is compiled, so the node is not mentioned either
      obtain ⟨_, g₁, hnone, hdone⟩ := Yields.bind_iff.1 h
      rw [compileOptional, compileBranches] at hnone
      obtain ⟨-, rfl⟩ := Yields.pure_iff.1 hnone
      obtain ⟨-, rfl⟩ := Yields.pure_iff.1 hdone
      exact hbare
    · exact ⟨hhere (.inl ⟨hbare, hothers⟩), fun _ _ _ => .inr hrest⟩
  · exact ⟨hhere (.inr hvalue), fun _ _ _ => .inr hrest⟩

/-- An entry that is an edge. -/
theorem innerEdgeKey_matches {kind : PatternKey} {x : Compiling Direction}
    (hcont : Continuing n g) (hnames : Unambiguous (keyNames key ++ value.wildcardNames))
    (hparent : Settled n parent) (hresolve : PatternKey.resolve key = .ok kind)
    (hx : direction? kind = some x) (hcarries : Carries n parent g ((key, value) :: rest)) :
    EntryMatches check codec n parent node key value kind rest g := by
  have hkey : key ≠ PatternKey.optionalKey := by
    refine ne_optionalKey_of_resolve hresolve ?_
    rintro rfl
    cases hx
  rw [Carries, Value.KeepsEntries, if_neg hkey] at hcarries
  rcases hcarries with ⟨hbare, hbehind⟩ | ⟨hkeeps, hrest⟩
  · have hedge : ∀ image, Unnamed image → Settled g.nodeCounter image →
        Matches n image (Edges.dissolve n parent)
          (compileKey check codec node (Group.subjectVariable n) key value kind)
          (compileKey check codec node parent key value kind) g (Still image) := by
      intro image hun hs
      have hsecure : Secure [] image (value.Keeps []) := .inl hun
      exact innerEdge_matches hcont hnames hresolve hx hs hsecure
    obtain ⟨hhere, hbare'⟩ := Matches.of_bare hedge hcont.number hbare parent
    exact ⟨hhere, fun edges g' h => .inl ⟨hbare' edges g' h, hbehind.of_ne hkey⟩⟩
  · have himage : Settled g.nodeCounter parent := hparent.mono (Nat.le_of_lt hcont.number)
    have hsecure : Secure [parent] parent (value.Keeps [parent]) :=
      .inr ⟨List.mem_singleton_self parent, hkeeps⟩
    exact ⟨innerEdge_matches hcont hnames hresolve hx himage hsecure, fun _ _ _ => .inr hrest⟩

/-- An entry whose key is classified. -/
theorem innerKey_matches {kind : PatternKey} (hcont : Continuing n g)
    (hnames : Unambiguous (keyNames key ++ value.wildcardNames)) (hparent : Settled n parent)
    (hresolve : PatternKey.resolve key = .ok kind)
    (hcarries : Carries n parent g ((key, value) :: rest)) :
    EntryMatches check codec n parent node key value kind rest g := by
  cases kind with
  | id =>
    have hkey := ne_optionalKey_of_resolve hresolve nofun
    rw [Carries, Value.KeepsEntries, if_neg hkey] at hcarries
    refine ⟨.pure_still rfl g, fun edges g' h => ?_⟩
    obtain ⟨-, rfl⟩ := Yields.pure_iff.1 h
    exact hcarries.imp (fun h => ⟨h.1, h.2.of_ne hkey⟩) And.right
  | optional =>
    obtain rfl := eq_optionalKey_of_resolve hresolve
    exact innerOptionalKey_matches hcont hnames.right hparent hcarries
  | operator _ => exact ⟨.throw _ g, fun edges g' h => (Yields.throw_iff.1 h).elim⟩
  | inverse _ | wildcard _ | property _ =>
    exact innerEdgeKey_matches hcont hnames hparent hresolve rfl hcarries

/-- The entries of the branch, one after the other: before the node is mentioned they are free,
and from then on they keep the parent. -/
theorem innerEntries_matches {entries : List (String × Value)} (hcont : Continuing n g)
    (hnames : Unambiguous (Value.wildcardNamesEntries entries)) (hparent : Settled n parent)
    (hcarries : Carries n parent g entries) :
    Matches n parent (Edges.dissolve n parent)
      (compileEntries check codec node (Group.subjectVariable n) entries)
      (compileEntries check codec node parent entries) g (Still parent) := by
  induction entries generalizing g with
  | nil =>
    rw [compileEntries, compileEntries]
    exact .pure_still rfl g
  | cons entry rest ih =>
    obtain ⟨key, value⟩ := entry
    rw [Value.wildcardNamesEntries] at hnames
    have hentry : Matches n parent (Edges.dissolve n parent)
        (compileEntry check codec node (Group.subjectVariable n) key value)
        (compileEntry check codec node parent key value) g (Still parent) := by
      refine (Matches.lift _ g).bind_still fun kind g₁ hkind => ?_
      obtain ⟨hresolve, rfl⟩ := Yields.compiling_lift_iff.1 hkind
      exact (innerKey_matches hcont hnames.left hparent hresolve hcarries).here
    rw [compileEntries_cons, compileEntries_cons]
    refine hentry.bind_still fun here g₁ hhere => ?_
    have hadv := advances_compileEntry hnames.left (settled_subjectVariable hcont.number) hhere
    obtain ⟨kind, _, hkind, hkey⟩ := Yields.bind_iff.1 hhere
    obtain ⟨hresolve, rfl⟩ := Yields.compiling_lift_iff.1 hkind
    have hrest :=
      (innerKey_matches hcont hnames.left hparent hresolve hcarries).behind here g₁ hkey
    refine (ih (hcont.advance hadv) hnames.right hrest).bind_still
      fun others g₂ _ => .pure_still ?_ g₂
    exact ((redirects_dissolve n parent).append here others).symm

end

/-! ## Optional branches -/

/-- The entries of a branch, compiled for a subject, and the node closed. -/
def compileBody (check : RegexCheck) (codec : Codec) (node : Nat) (subject : String)
    (entries : Node) :
    Compiling Unit := do
  let edges ← compileEntries check codec node subject entries
  closeNode ⟨subject, Group.predicateVariable node, Group.objectVariable node⟩ edges

/-- A branch without an identifier is compiled under a variable of its own, and demoted. -/
theorem run_compileBranch {check : RegexCheck} {codec : Codec} {entries : Node}
    (hfilter : Filter.isFilter entries = false)
    (hanonymous : ∀ g, Yields (subjectToken codec (identifier? entries)) g none g)
    (subject : String) (g : Group) :
    (compileBranch check codec subject (.node entries)).run g =
      match
        (compileBody check codec g.nodeCounter (Group.subjectVariable g.nodeCounter) entries).run
          (g.enterOptional.nextNodeId.2.registerNode none g.nodeCounter false).2 with
      | (.ok _, g') => (.ok (), (g'.demote g.nodeCounter subject).exitOptional)
      | (.error e, g') => (.error e, g') := by
  have hopen := yields_openNode (hanonymous g.enterOptional.nextNodeId.2) false
  have hnode : g.enterOptional.nodeCounter = g.nodeCounter := rfl
  have hvars : (g.enterOptional.nextNodeId.2.registerNode none g.nodeCounter false).1 =
      ⟨Group.subjectVariable g.nodeCounter, Group.predicateVariable g.nodeCounter,
        Group.objectVariable g.nodeCounter⟩ := rfl
  rw [Yields, hnode, hvars] at hopen
  rw [compileBranch_node check codec subject hfilter, compileBody]
  simp only [compileNode, bind_assoc, pure_bind, Yields.run_bind, run_change, hopen]
  generalize (compileEntries check codec g.nodeCounter _ entries).run _ = outcome
  rcases outcome with ⟨e | edges, g'⟩
  · rfl
  · rfl

/-- Without the detour, the same body is compiled for the parent. -/
theorem run_continueBranch {check : RegexCheck} {codec : Codec} {entries : Node}
    (hfilter : Filter.isFilter entries = false) (subject : String) (g : Group) :
    (continueBranch check codec subject entries).run g =
      match (compileBody check codec g.nodeCounter subject entries).run
          g.enterOptional.nextNodeId.2 with
      | (.ok _, g') => (.ok (), g'.exitOptional)
      | (.error e, g') => (.error e, g') := by
  have hstep : (step Group.nextNodeId).run g.enterOptional =
      (.ok g.nodeCounter, g.enterOptional.nextNodeId.2) := rfl
  rw [continueBranch, hfilter, if_neg Bool.false_ne_true, compileBody]
  simp only [Yields.run_bind, run_change, hstep]
  generalize (compileEntries check codec g.nodeCounter subject entries).run _ = outcome
  rcases outcome with ⟨e | edges, g'⟩
  · rfl
  · rfl

/-- Compiling the body under the variable of the branch matches compiling it for the parent. -/
theorem compileBody_matches (check : RegexCheck) (codec : Codec) {entries : Node} {subject : String}
    {g : Group}
    (hbare : (g.enterOptional.nextNodeId.2.registerNode none g.nodeCounter false).2.Bare
      g.nodeCounter)
    (hs : Settled g.nodeCounter subject)
    (hnames : Unambiguous (Value.wildcardNamesEntries entries))
    (hkeeps : KeepsBehindBranch subject entries) :
    Matches g.nodeCounter subject id
      (compileBody check codec g.nodeCounter (Group.subjectVariable g.nodeCounter) entries)
      (compileBody check codec g.nodeCounter subject entries)
      (g.enterOptional.nextNodeId.2.registerNode none g.nodeCounter false).2 (Still subject) := by
  have hcont : Continuing g.nodeCounter
      (g.enterOptional.nextNodeId.2.registerNode none g.nodeCounter false).2 :=
    ⟨Nat.succ_pos _, Nat.lt_succ_self _⟩
  have hsubject : Settled (g.nodeCounter + 1) (Group.subjectVariable g.nodeCounter) :=
    settled_subjectVariable (Nat.lt_succ_self _)
  refine (innerEntries_matches hcont hnames hs (.inl ⟨hbare, hkeeps⟩)).bind_still
    fun edges g' hedges => ?_
  obtain ⟨hadv, -⟩ := advances_compileEntries entries hnames hsubject hedges
  apply closeNode_matches (hcont.advance hadv).depth
  · rw [dissolved_subjectVariable]
  · rfl
  · exact noSubject_predicateVariable g.nodeCounter
  · rfl
  · exact noSubject_objectVariable g.nodeCounter

/-- The body leaves earlier nodes as they are. -/
theorem advances_compileBody {check : RegexCheck} {codec : Codec} {entries : Node} {node : Nat}
    {subject : String} {g g' : Group} {u : Unit} (hs : Settled g.nodeCounter subject)
    (hnames : Unambiguous (Value.wildcardNamesEntries entries))
    (h : Yields (compileBody check codec node subject entries) g u g') : g.Advances g' := by
  obtain ⟨edges, g₁, hedges, hclose⟩ := Yields.bind_iff.1 h
  obtain ⟨hadv, hdrawn⟩ := advances_compileEntries entries hnames hs hedges
  exact hadv.trans (advances_closeNode (hs.mono hadv.counter) (noSubject_predicateVariable _)
    (noSubject_objectVariable _) hdrawn.settled hclose)

/-- A branch that is no filter. -/
theorem compileBranch_agrees (check : RegexCheck) (codec : Codec) {entries : Node}
    {subject : String} {g : Group} (hfilter : Filter.isFilter entries = false)
    (hanonymous : ∀ g, Yields (subjectToken codec (identifier? entries)) g none g)
    (hg : g.Settled) (hs : Settled g.nodeCounter subject)
    (hnames : Unambiguous (Value.wildcardNamesEntries entries))
    (hkeeps : KeepsBehindBranch subject entries) :
    ((compileBranch check codec subject (.node entries)).run g).1 =
        ((continueBranch check codec subject entries).run g).1 ∧
      ∀ g', Yields (compileBranch check codec subject (.node entries)) g () g' ↔
        Yields (continueBranch check codec subject entries) g () g' := by
  have hopened := Group.dissolve_opened (g := g.enterOptional)
    ⟨hg.buffer, hg.projection, hg.nodes⟩ subject
  have hbare : (g.enterOptional.nextNodeId.2.registerNode none g.nodeCounter false).2.Bare
      g.nodeCounter := Group.bare_of_settled hg.buffer
  have hnode : g.enterOptional.nodeCounter = g.nodeCounter := rfl
  have hmatch := compileBody_matches check codec hbare hs hnames hkeeps
  rw [hnode] at hopened
  rw [Matches, hopened] at hmatch
  unfold Yields
  rw [run_compileBranch hfilter hanonymous, run_continueBranch hfilter]
  rcases hrun : (compileBody check codec g.nodeCounter (Group.subjectVariable g.nodeCounter)
    entries).run _ with ⟨e | u, g'⟩
  · rw [hrun] at hmatch
    rcases hdirect : (compileBody check codec g.nodeCounter subject entries).run
      g.enterOptional.nextNodeId.2 with ⟨e' | u, g''⟩
    · rw [hdirect] at hmatch
      obtain rfl : e' = e := Except.error.inj hmatch
      refine ⟨rfl, fun g' => ⟨fun h => ?_, fun h => ?_⟩⟩
      · cases h
      · cases h
    · rw [hdirect] at hmatch
      cases hmatch
  · rw [hrun] at hmatch
    obtain ⟨image, hstill, hdirect⟩ := hmatch
    rw [show image = subject from hstill] at hdirect
    -- the node is still registered under its variable, so demoting it dissolves it
    have hadv := advances_compileBody (settled_subjectVariable (Nat.lt_succ_self _)) hnames hrun
    have hregistered : Group.lookupNumber? g.nodeCounter g'.nodes =
        some (Group.subjectVariable g.nodeCounter) :=
      (hadv.nodes g.nodeCounter (Nat.lt_succ_self _)).trans (Group.lookupNumber?_setNumber _ _ _)
    have hdemote : g'.demote g.nodeCounter subject = g'.dissolve g.nodeCounter subject :=
      Group.demote_eq_dissolve hregistered subject
    rw [hdirect]
    dsimp only
    rw [hdemote]
    exact ⟨rfl, fun _ => Iff.rfl⟩

/-- **An optional branch is a continuation of its parent.** Take a pattern in which no wildcard
can be taken for the subject of a node, and a branch that is reached anywhere in it and has
no identifier, or the anonymous wildcard as one. Compiling the branch as a node of its own and
demoting it then has the result, and on success leaves the group, of compiling it for its
parent in the first place; provided that whatever it lists behind a branch of its own keeps
the subject of the parent. -/
theorem optional_retrofit (check : RegexCheck) (codec : Codec) (pattern : Node)
    (hnames : Unambiguous (Value.wildcardNamesEntries pattern)) {subject : String} {entries : Node}
    {g : Group} (hreached : Reached check codec pattern (.branch subject (.node entries)) g)
    (hid : identifier? entries = none ∨ identifier? entries = some (.wildcard none))
    (hkeeps : KeepsBehindBranch subject entries) :
    ((compileBranch check codec subject (.node entries)).run g).1 =
        ((continueBranch check codec subject entries).run g).1 ∧
      ∀ g', Yields (compileBranch check codec subject (.node entries)) g () g' ↔
        Yields (continueBranch check codec subject entries) g () g' := by
  obtain ⟨hg, hentries, hs⟩ := hreached.clear hnames
  rw [Value.wildcardNames] at hentries
  rcases hfilter : Filter.isFilter entries with _ | _
  · have hanonymous : ∀ g, Yields (subjectToken codec (identifier? entries)) g none g := by
      intro g
      rcases hid with hid | hid
      · rw [hid]
        exact Yields.pure_iff.2 ⟨rfl, rfl⟩
      · rw [hid]
        exact Yields.pure_iff.2 ⟨rfl, rfl⟩
    exact compileBranch_agrees check codec hfilter hanonymous hg hs hentries hkeeps
  · -- neither walk takes a filter for a branch
    have hbranch : (compileBranch check codec subject (.node entries)).run g =
        (.error (.invalidFilter .optionalFilter), g) := by
      rw [compileBranch_filter check codec subject hfilter]
      rfl
    have hcontinue : (continueBranch check codec subject entries).run g =
        (.error (.invalidFilter .optionalFilter), g) := by
      rw [continueBranch, hfilter]
      rfl
    unfold Yields
    rw [hbranch, hcontinue]
    exact ⟨rfl, fun _ => Iff.rfl⟩

/-- The group in which the entries of a node that is identified by `a` are compiled. -/
def begun : Group :=
  (Group.empty.nextNodeId.2.registerNode (some (Literal.bracketed (Vocabulary.ids ++ "a"))) 0
    false).2

/-- A branch with several branches of its own, and nested nodes that join others. Where a branch
is identified like the parent, so is the node that it is joined to; where one is identified like
a branch around it, nothing is joined to that branch. -/
def continuedBranch : Node :=
  [("@id", .wildcard none),
    ("$optional", .list [.node [("f", .wildcard (some "x"))],
      .node [("child", .node [("@id", .string "a"),
        ("$optional", .node [("@id", .string "a"), ("g", .integer 1)])])],
      .node [("@id", .string "c"),
        ("child", .node [("$optional", .node [("@id", .string "c"), ("g", .integer 2)])])]]),
    ("^child", .node [("$optional", .node [("h", .null)])])]

/-- The parent of that branch. -/
def continuedParent : Node :=
  [("@id", .string "a"), ("$optional", .node continuedBranch)]

theorem optional_retrofit_continued :
    Unambiguous (Value.wildcardNamesEntries continuedParent) ∧
      identifier? continuedBranch = some (.wildcard none) ∧
      KeepsBehindBranch "<http://grel.org/ids/id/a>" continuedBranch ∧
      ∃ g g', Reached .lenient .empty continuedParent (.branch "<http://grel.org/ids/id/a>"
          (.node continuedBranch)) g ∧
        Yields (compileBranch .lenient .empty "<http://grel.org/ids/id/a>" (.node continuedBranch))
          g () g' ∧
        Yields (continueBranch .lenient .empty "<http://grel.org/ids/id/a>" continuedBranch)
          g () g' := by
  have hnames : Unambiguous (Value.wildcardNamesEntries continuedParent) := by
    rintro name hname ⟨number, rfl⟩
    have hx := congrArg String.toList (List.mem_singleton.1 hname)
    rw [String.toList_append] at hx
    cases hx
  have hkeeps : KeepsBehindBranch "<http://grel.org/ids/id/a>" continuedBranch := by
    have hchild : Named "<http://grel.org/ids/id/a>" [("@id", .string "a"),
        ("$optional", .node [("@id", .string "a"), ("g", .integer 1)])] := by
      decide +kernel
    have hapart : ¬ Joins "<http://grel.org/ids/id/a>"
        [[("@id", .string "c"), ("g", .integer 2)]] := by
      decide +kernel
    have hnameless : ¬ Joins "<http://grel.org/ids/id/a>" [[("h", .null)]] := by
      decide +kernel
    have hsecond : Value.KeepsBranch ["<http://grel.org/ids/id/a>"]
        (.node [("child", .node [("@id", .string "a"),
          ("$optional", .node [("@id", .string "a"), ("g", .integer 1)])])]) := by
      refine ⟨⟨fun token htoken _ => ?_, trivial, ⟨trivial, trivial, trivial⟩, trivial⟩, trivial⟩
      obtain rfl := List.mem_singleton.1 htoken
      exact hchild
    have hthird : Value.KeepsBranch ["<http://grel.org/ids/id/a>"]
        (.node [("@id", .string "c"),
          ("child", .node [("$optional", .node [("@id", .string "c"), ("g", .integer 2)])])]) := by
      refine ⟨trivial, ⟨fun token htoken hjoins => ?_, ⟨trivial, trivial, trivial⟩, trivial⟩,
        trivial⟩
      obtain rfl := List.mem_singleton.1 htoken
      exact absurd hjoins hapart
    refine ⟨⟨hsecond, hthird, trivial⟩,
      ⟨fun token htoken hjoins => ?_, ⟨trivial, trivial⟩, trivial⟩, trivial⟩
    obtain rfl := List.mem_singleton.1 htoken
    exact absurd hjoins hnameless
  have hreached : Reached .lenient .empty continuedParent (.branch "<http://grel.org/ids/id/a>"
      (.node continuedBranch)) begun := by
    have hroot : Reached .lenient .empty continuedParent (.node continuedParent false) .empty :=
      .root rfl
    have hentries := hroot.step (.entries rfl)
    have hrest := hentries.step (.rest rfl)
    have hoptions := hrest.step (.options rfl)
    exact hoptions.step (.one nofun)
  have hdirect := Yields.of_toBool (x := continueBranch .lenient .empty "<http://grel.org/ids/id/a>"
    continuedBranch) (s := begun) (by decide +kernel)
  exact ⟨hnames, rfl, hkeeps, begun, _, hreached,
    ((optional_retrofit .lenient .empty continuedParent hnames hreached (.inr rfl) hkeeps).2
      _).2 hdirect,
    hdirect⟩

/-! ## Moved clauses -/

/-- A branch without an identifier. Its own branch comes first; then a nested node holds a
branch that is identified like the parent. -/
def movedBranch : Node :=
  [("$optional", .node [("f", .integer 1)]),
    ("child", .node [("@id", .string "d"),
      ("$optional", .node [("@id", .string "a"), ("g", .integer 1)])])]

/-- The parent of that branch. -/
def movedParent : Node :=
  [("@id", .string "a"), ("$optional", .node movedBranch)]

/-- The clause that the branch's own branch writes for the parent ends up with the parent. If it
is compiled for the parent at once, it is handed on to the nested node. -/
theorem retrofit_differs_for_moved_parent :
    Unambiguous (Value.wildcardNamesEntries movedParent) ∧ identifier? movedBranch = none ∧
      ∃ parent g g₁ g₂, Reached .lenient .empty movedParent (.branch parent (.node movedBranch)) g ∧
        Yields (compileBranch .lenient .empty parent (.node movedBranch)) g () g₁ ∧
        Yields (continueBranch .lenient .empty parent movedBranch) g () g₂ ∧
        g₁.optionalBlocks.flatten.head? = some (.triple ⟨"<http://grel.org/ids/id/a>", ":f",
          "\"1\"^^<http://www.w3.org/2001/XMLSchema#integer>"⟩) ∧
        g₂.optionalBlocks.flatten.head? = some (.triple ⟨"<http://grel.org/ids/id/d>", ":f",
          "\"1\"^^<http://www.w3.org/2001/XMLSchema#integer>"⟩) := by
  refine ⟨nofun, rfl, Literal.bracketed (Vocabulary.ids ++ "a"), begun, _, _, ?_,
    Yields.of_toBool (by decide +kernel), Yields.of_toBool (by decide +kernel),
    by decide +kernel, by decide +kernel⟩
  have hroot : Reached .lenient .empty movedParent (.node movedParent false) .empty := .root rfl
  have hentries := hroot.step (.entries rfl)
  have hrest := hentries.step (.rest rfl)
  have hoptions := hrest.step (.options rfl)
  exact hoptions.step (.one nofun)

end Pattern

end LinkedData
