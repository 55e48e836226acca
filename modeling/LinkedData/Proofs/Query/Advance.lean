import LinkedData.Proofs.Query.Fresh

/-!
# Compiling keeps subject variables fresh

Each part of compiling advances the group (`Group.Advances`), and each token that it makes is
settled afterwards. Tokens of values are even fresh: what an edge leads to cannot be the
subject variable of a node that was numbered before. One induction on the pattern covers all
parts.
-/

namespace LinkedData

open Literal

namespace Pattern

/-! ## Tokens and nodes -/

theorem advances_wildcardToken {name? : Option String} {g g' : Group} {token : String}
    (hname : ∀ name, name? = some name → ¬ NumbersSubject name)
    (h : Yields (wildcardToken name?) g token g') : g.Advances g' ∧ NoSubject token := by
  cases makes_of_wildcardToken h with
  | anonymous => exact ⟨g.advances_nextNodeId, noSubject_wildcardVariable _⟩
  | named _ => exact ⟨g.advances_namedVariable _, noSubject_named (hname _ rfl)⟩

/-- An identifier gives its token, and changes nothing but the named variables, to which it adds
what it names. -/
theorem subjectToken_spec {codec : Codec} {id : Option Value} {g g' : Group} {token : Option String}
    (h : Yields (subjectToken codec id) g token g') :
    token = identifierToken? id ∧
      g' = { g with tupleVariables := Query.merge g.tupleVariables (identifierNames id) } := by
  cases id with
  | none =>
    obtain ⟨rfl, rfl⟩ := Yields.pure_iff.1 h
    exact ⟨rfl, rfl⟩
  | some v =>
    cases v with
    | wildcard name? =>
      cases name? with
      | none =>
        obtain ⟨rfl, rfl⟩ := Yields.pure_iff.1 h
        exact ⟨rfl, rfl⟩
      | some name =>
        obtain ⟨variableToken, g₁, hvar, hend⟩ := Yields.bind_iff.1 h
        obtain ⟨rfl, rfl⟩ := Yields.pure_iff.1 hend
        cases makes_of_wildcardToken hvar
        exact ⟨rfl, rfl⟩
    | string s =>
      rw [subjectToken] at h
      rcases hn : Reference.normalize? s with _ | r
      · rw [hn] at h
        exact (Yields.throw_iff.1 h).elim
      · rw [hn] at h
        obtain ⟨rfl, rfl⟩ := Yields.pure_iff.1 h
        rw [identifierToken?, hn]
        exact ⟨rfl, rfl⟩
    | reference _ | iri _ =>
      obtain ⟨rfl, rfl⟩ := Yields.pure_iff.1 h
      exact ⟨rfl, rfl⟩
    | null | boolean _ | integer _ | float _ | timestamp _ | term _ | node _ | list _
      | custom _ _ => exact (Yields.throw_iff.1 h).elim

/-- A node takes the next number, and is registered under its subject. -/
theorem opened_of_yields {codec : Codec} {entries : Node} {inverse : Bool} {g g' : Group}
    {node : Nat} {vars : NodeVariables}
    (h : Yields (openNode codec entries inverse) g (node, vars) g') :
    node = g.nodeCounter ∧ vars = ⟨subjectOf node entries, Group.predicateVariable node,
      Group.objectVariable node⟩ ∧ g' = g.opened entries inverse := by
  obtain ⟨node, g₁, hnode, h⟩ := Yields.bind_iff.1 h
  obtain ⟨id, g₂, hid, h⟩ := Yields.bind_iff.1 h
  obtain ⟨vars, g₃, hvars, h⟩ := Yields.bind_iff.1 h
  obtain ⟨heq, rfl⟩ := Yields.pure_iff.1 h
  cases heq
  obtain ⟨rfl, rfl⟩ := Yields.step_iff.1 hnode
  obtain ⟨rfl, rfl⟩ := subjectToken_spec hid
  obtain ⟨rfl, rfl⟩ := Yields.step_iff.1 hvars
  exact ⟨rfl, rfl, rfl⟩

/-- A node that was opened: its number is the next one, its subject is what identifies it or
else the variable of its number, and it is registered under that subject. -/
structure Opened (entries : Node) (g : Group) (node : Nat) (vars : NodeVariables) (g' : Group) :
    Prop where
  /-- the number -/
  number : node = g.nodeCounter
  /-- the next number -/
  counter : g'.nodeCounter = node + 1
  /-- the subject -/
  subject : vars.subject =
    (identifierToken? (identifier? entries)).getD (Group.subjectVariable node)
  /-- the variable of an arbitrary property -/
  predicate : vars.predicate = Group.predicateVariable node
  /-- the variable of its value -/
  object : vars.object = Group.objectVariable node
  /-- the registered subject -/
  registered : Group.lookupNumber? node g'.nodes = some vars.subject

theorem opened_of_openNode {codec : Codec} {entries : Node} {inverse : Bool} {g g' : Group}
    {node : Nat} {vars : NodeVariables}
    (h : Yields (openNode codec entries inverse) g (node, vars) g') :
    Opened entries g node vars g' := by
  obtain ⟨rfl, rfl, rfl⟩ := opened_of_yields h
  exact ⟨rfl, rfl, rfl, rfl, rfl, Group.lookupNumber?_setNumber _ _ _⟩

theorem advances_openNode {codec : Codec} {entries : Node} {inverse : Bool} {g g' : Group}
    {node : Nat} {vars : NodeVariables}
    (hnames : Unambiguous (Value.wildcardNamesEntries entries))
    (h : Yields (openNode codec entries inverse) g (node, vars) g') : g.Advances g' := by
  obtain ⟨rfl, rfl, rfl⟩ := opened_of_yields h
  let named : Group :=
    { g with
      tupleVariables := Query.merge g.tupleVariables (identifierNames (identifier? entries)) }
  have hnamed : g.Advances named :=
    ⟨Nat.le_refl _, rfl, fun _ _ => rfl, fun hg => ⟨hg.buffer, hg.projection, hg.nodes⟩⟩
  exact hnamed.trans
    (Group.advances_registerNode _ (fun token ht => noSubject_identifier hnames ht) inverse)

theorem Opened.settled {entries : Node} {g g' : Group} {node : Nat} {vars : NodeVariables}
    (hnames : Unambiguous (Value.wildcardNamesEntries entries))
    (h : Opened entries g node vars g') :
    Settled g'.nodeCounter vars.subject ∧ Fresh g.nodeCounter vars.subject := by
  rw [h.subject, h.counter]
  rcases hi : identifierToken? (identifier? entries) with _ | token
  · exact ⟨settled_subjectVariable (Nat.lt_succ_self _),
      fresh_subjectVariable (Nat.le_of_eq h.number.symm)⟩
  · have htoken := noSubject_identifier hnames hi
    exact ⟨htoken.settled _, htoken.fresh _⟩

/-- A filter makes a variable for its edge. -/
theorem advances_compileFilter {check : RegexCheck} {codec : Codec} {entries : Node} {node : Nat}
    {g g' : Group} {filter : BoundFilter}
    (h : Yields (compileFilter check codec entries node) g filter g') :
    g.Advances g' ∧ NoSubject filter.token := by
  obtain ⟨f, body, -, -, rfl, rfl⟩ := compileFilter_spec h
  exact ⟨Group.advances_freshFilterVariable _ node, noSubject_filterVariable node _⟩

/-- The tokens on the edges of a node, compiled between two counters: each is settled, and is
the subject of the node or stands for nothing earlier. -/
structure Edges.Drawn (low high : Nat) (subject : String) (edges : Edges) : Prop where
  /-- no number from the second counter up -/
  settled : ∀ t ∈ edges.triples, t.Settled high
  /-- no number below the first counter, the subject apart -/
  fresh : ∀ t ∈ edges.triples, ∀ token ∈ t.tokens, token = subject ∨ Fresh low token

theorem Edges.Drawn.none (low high : Nat) (subject : String) :
    Edges.none.Drawn low high subject :=
  ⟨fun _ ht => absurd ht List.not_mem_nil, fun _ ht => absurd ht List.not_mem_nil⟩

theorem Edges.Drawn.append {low mid high : Nat} {subject : String} {a b : Edges}
    (ha : a.Drawn low mid subject) (hb : b.Drawn mid high subject) (hlow : low ≤ mid)
    (hhigh : mid ≤ high) : (a.append b).Drawn low high subject where
  settled := by
    intro t ht
    rcases List.mem_append.1 ht with ht | ht
    · exact (ha.settled t ht).mono hhigh
    · exact hb.settled t ht
  fresh := by
    intro t ht token htoken
    rcases List.mem_append.1 ht with ht | ht
    · exact ha.fresh t ht token htoken
    · exact (hb.fresh t ht token htoken).imp_right fun h => h.mono hlow

theorem Edges.Drawn.single {low high : Nat} {subject object : String} {direction : Direction}
    (hs : Settled high subject) (hp : NoSubject direction.predicate) (ho : Settled high object)
    (hf : Fresh low object) (filters : List BoundFilter) :
    (Edges.mk [direction.edge subject object] filters).Drawn low high subject where
  settled := by
    intro t ht
    obtain rfl := List.mem_singleton.1 ht
    rw [Direction.edge]
    split
    · exact ⟨ho, hp.settled _, hs⟩
    · exact ⟨hs, hp.settled _, ho⟩
  fresh := by
    intro t ht token htoken
    obtain rfl := List.mem_singleton.1 ht
    have hcases : token = subject ∨ token = direction.predicate ∨ token = object := by
      rw [Direction.edge] at htoken
      split at htoken
      · rcases Triple.mem_tokens.1 htoken with h | h | h
        · exact .inr (.inr h)
        · exact .inr (.inl h)
        · exact .inl h
      · exact Triple.mem_tokens.1 htoken
    rcases hcases with h | rfl | rfl
    · exact .inl h
    · exact .inr (hp.fresh low)
    · exact .inr hf

/-- Closing a node whose variables and edges are settled. -/
theorem advances_closeNode {vars : NodeVariables} {edges : Edges} {g g' : Group} {u : Unit}
    (hs : Settled g.nodeCounter vars.subject) (hp : NoSubject vars.predicate)
    (ho : NoSubject vars.object) (hedges : ∀ t ∈ edges.triples, t.Settled g.nodeCounter)
    (h : Yields (closeNode vars edges) g u g') : g.Advances g' := by
  obtain rfl := Yields.change_iff.1 h
  refine Group.advances_append fun c hc => ?_
  rcases List.mem_append.1 hc with hc | hc
  · obtain ⟨t, ht, rfl⟩ := List.mem_map.1 hc
    split at ht
    · obtain rfl := List.mem_singleton.1 ht
      exact ⟨hs, hp.settled _, ho.settled _⟩
    · exact hedges t ht
  · obtain ⟨f, -, rfl⟩ := List.mem_map.1 hc
    trivial

/-- The edge of a key. -/
theorem advances_direction {key : String} {kind : PatternKey} {x : Compiling Direction}
    {d : Direction} {g g' : Group} (hnames : Unambiguous (keyNames key))
    (hkind : PatternKey.resolve key = .ok kind) (hx : direction? kind = some x)
    (h : Yields x g d g') : g.Advances g' ∧ NoSubject d.predicate := by
  cases turns_of_direction hx h with
  | inverse hterm =>
    exact ⟨.refl _, noSubject_of_not_isVariable (not_isVariable_encodeTerm hterm)⟩
  | wildcard made =>
    refine advances_wildcardToken ?_ made
    rintro name rfl
    exact hnames name (mem_keyNames_of_resolve hkind)
  | property =>
    have hterm := encodeTerm_of_resolve hkind
    exact ⟨.refl _, noSubject_of_not_isVariable (not_isVariable_encodeTerm hterm)⟩

/-- A node that was compiled: it is registered still, and its subject is settled and fresh. -/
structure Compiled (entries : Node) (g : Group) (compiled : CompiledNode) (g' : Group) : Prop where
  /-- the number -/
  number : compiled.node = g.nodeCounter
  /-- the subject -/
  subject : compiled.subject =
    (identifierToken? (identifier? entries)).getD (Group.subjectVariable compiled.node)
  /-- the registered subject -/
  registered : Group.lookupNumber? compiled.node g'.nodes = some compiled.subject
  /-- its number is below the counter -/
  settled : Settled g'.nodeCounter compiled.subject
  /-- no earlier node has it -/
  fresh : Fresh g.nodeCounter compiled.subject

/-! ## All parts of compiling -/

section

variable {check : RegexCheck} {codec : Codec}

mutual

theorem advances_compileObject :
    ∀ (v : Value) ⦃node : Nat⦄ ⦃inverse : Bool⦄ ⦃g g' : Group⦄ ⦃r : String × List BoundFilter⦄,
    Unambiguous v.wildcardNames →
    Yields (compileObject check codec node inverse v) g r g' →
    g.Advances g' ∧ Settled g'.nodeCounter r.1 ∧ Fresh g.nodeCounter r.1
  | v => by
    intro node inverse g g' r hnames h
    rcases v.node_or_list_or_wildcard_or_scalar with
      ⟨entries, rfl⟩ | ⟨items, rfl⟩ | ⟨name?, rfl⟩ | hscalar
    · rw [Value.wildcardNames] at hnames
      rcases hfilter : Filter.isFilter entries with _ | _
      · rw [compileObject_node check codec node inverse hfilter] at h
        obtain ⟨compiled, g₁, hcompiled, h⟩ := Yields.bind_iff.1 h
        obtain ⟨rfl, rfl⟩ := Yields.pure_iff.1 h
        obtain ⟨hadv, hnode⟩ := advances_compileNode entries hnames hcompiled
        exact ⟨hadv, hnode.settled, hnode.fresh⟩
      · rw [compileObject_filter check codec node inverse hfilter] at h
        obtain ⟨filter, g₁, hrun, h⟩ := Yields.bind_iff.1 h
        obtain ⟨rfl, rfl⟩ := Yields.pure_iff.1 h
        obtain ⟨hadv, htoken⟩ := advances_compileFilter hrun
        exact ⟨hadv, htoken.settled _, htoken.fresh _⟩
    · rw [compileObject] at h
      exact (Yields.throw_iff.1 h).elim
    · rw [compileObject] at h
      obtain ⟨token, g₁, htoken, h⟩ := Yields.bind_iff.1 h
      obtain ⟨rfl, rfl⟩ := Yields.pure_iff.1 h
      have hname : ∀ name, name? = some name → ¬ NumbersSubject name := by
        rintro name rfl
        rw [Value.wildcardNames] at hnames
        exact hnames name (List.mem_singleton_self name)
      obtain ⟨hadv, hno⟩ := advances_wildcardToken hname htoken
      exact ⟨hadv, hno.settled _, hno.fresh _⟩
    · rw [compileObject_scalar check codec _ _ hscalar] at h
      obtain ⟨token, g₁, hlift, hend⟩ := Yields.bind_iff.1 h
      obtain ⟨hok, rfl⟩ := Yields.compiling_lift_iff.1 hlift
      obtain ⟨rfl, rfl⟩ := Yields.pure_iff.1 hend
      have hno := noSubject_of_not_isVariable (not_isVariable_encodeLiteral hok)
      exact ⟨.refl _, hno.settled _, hno.fresh _⟩
termination_by v => (sizeOf v, 0)

theorem advances_compileNode :
    ∀ (entries : List (String × Value)) ⦃inverse : Bool⦄ ⦃g g' : Group⦄ ⦃compiled : CompiledNode⦄,
    Unambiguous (Value.wildcardNamesEntries entries) →
    Yields (compileNode check codec entries inverse) g compiled g' →
    g.Advances g' ∧ Compiled entries g compiled g'
  | entries => by
    intro inverse g g' compiled hnames h
    obtain ⟨⟨node, vars⟩, g₁, hopen, h⟩ := Yields.bind_iff.1 h
    obtain ⟨edges, g₂, hedges, h⟩ := Yields.bind_iff.1 h
    obtain ⟨u, g₃, hclose, h⟩ := Yields.bind_iff.1 h
    obtain ⟨rfl, rfl⟩ := Yields.pure_iff.1 h
    have hopened := opened_of_openNode hopen
    have hfirst := advances_openNode hnames hopen
    obtain ⟨hs, hf⟩ := hopened.settled hnames
    obtain ⟨hsecond, hdrawn⟩ := advances_compileEntries entries hnames hs hedges
    have hs := hs.mono hsecond.counter
    have hthird := advances_closeNode hs (hopened.predicate ▸ noSubject_predicateVariable node)
      (hopened.object ▸ noSubject_objectVariable node) hdrawn.settled hclose
    have hnode : node < g₁.nodeCounter := by
      rw [hopened.counter]
      exact Nat.lt_succ_self node
    have hkept := (hsecond.trans hthird).nodes node hnode
    exact ⟨(hfirst.trans hsecond).trans hthird,
      ⟨hopened.number, hopened.subject, hkept.trans hopened.registered, hs.mono hthird.counter,
        hf⟩⟩
termination_by entries => (sizeOf entries, 1)

theorem advances_compileObjects :
    ∀ (items : List Value) ⦃node : Nat⦄ ⦃subject : String⦄ ⦃direction : Direction⦄ ⦃g g' : Group⦄
    ⦃edges : Edges⦄,
    Unambiguous (Value.wildcardNamesItems items) → Settled g.nodeCounter subject →
    NoSubject direction.predicate →
    Yields (compileObjects check codec node subject direction items) g edges g' →
    g.Advances g' ∧ edges.Drawn g.nodeCounter g'.nodeCounter subject
  | [] => by
    intro node subject direction g g' edges hnames hs hp h
    obtain ⟨rfl, rfl⟩ := Yields.pure_iff.1 h
    exact ⟨.refl _, .none _ _ subject⟩
  | item :: rest => by
    intro node subject direction g g' edges hnames hs hp h
    rw [Value.wildcardNamesItems] at hnames
    rw [compileObjects] at h
    obtain ⟨⟨object, filters⟩, g₁, hitem, h⟩ := Yields.bind_iff.1 h
    obtain ⟨others, g₂, hrest, h⟩ := Yields.bind_iff.1 h
    obtain ⟨rfl, rfl⟩ := Yields.pure_iff.1 h
    obtain ⟨hfirst, hobject, hfresh⟩ := advances_compileObject item hnames.left hitem
    have hs := hs.mono hfirst.counter
    obtain ⟨hsecond, hothers⟩ := advances_compileObjects rest hnames.right hs hp hrest
    refine ⟨hfirst.trans hsecond, Edges.Drawn.append ?_ hothers hfirst.counter hsecond.counter⟩
    exact .single hs hp hobject hfresh filters
termination_by items => (sizeOf items, 0)

theorem advances_compileProperty :
    ∀ (v : Value) ⦃node : Nat⦄ ⦃subject : String⦄ ⦃direction : Direction⦄ ⦃g g' : Group⦄
    ⦃edges : Edges⦄,
    Unambiguous v.wildcardNames → Settled g.nodeCounter subject →
    NoSubject direction.predicate →
    Yields (compileProperty check codec node subject direction v) g edges g' →
    g.Advances g' ∧ edges.Drawn g.nodeCounter g'.nodeCounter subject
  | v => by
    intro node subject direction g g' edges hnames hs hp h
    rw [compileProperty.eq_def] at h
    split at h
    · rw [Value.wildcardNames] at hnames
      exact advances_compileObjects _ hnames hs hp h
    · obtain ⟨⟨object, filters⟩, g₁, hitem, h⟩ := Yields.bind_iff.1 h
      obtain ⟨rfl, rfl⟩ := Yields.pure_iff.1 h
      obtain ⟨hadv, hobject, hfresh⟩ := advances_compileObject v hnames hitem
      exact ⟨hadv, .single (hs.mono hadv.counter) hp hobject hfresh filters⟩
termination_by v => (sizeOf v, 1)

theorem advances_compileBranch : ∀ (v : Value) ⦃subject : String⦄ ⦃g g' : Group⦄ ⦃u : Unit⦄,
    Unambiguous v.wildcardNames → Settled g.nodeCounter subject →
    Yields (compileBranch check codec subject v) g u g' → g.Advances g'
  | v => by
    intro subject g g' u hnames hs h
    rcases v.node_or_not with ⟨entries, rfl⟩ | hnode
    · rw [Value.wildcardNames] at hnames
      rcases hfilter : Filter.isFilter entries with _ | _
      · rw [compileBranch_node check codec subject hfilter] at h
        obtain ⟨u₀, g₀, hstart, h⟩ := Yields.bind_iff.1 h
        obtain ⟨compiled, g₁, hcompiled, h⟩ := Yields.bind_iff.1 h
        obtain ⟨u₂, g₂, hdemote, hexit⟩ := Yields.bind_iff.1 h
        obtain rfl := Yields.change_iff.1 hstart
        obtain rfl := Yields.change_iff.1 hdemote
        obtain rfl := Yields.change_iff.1 hexit
        obtain ⟨hadv, hnode⟩ := advances_compileNode entries hnames hcompiled
        exact Group.advances_branch hadv (Nat.le_of_eq hnode.number.symm) hs
      · rw [compileBranch_filter check codec subject hfilter] at h
        exact (Yields.throw_iff.1 h).elim
    · rw [compileBranch_other check codec subject hnode] at h
      exact (Yields.throw_iff.1 h).elim
termination_by v => (sizeOf v, 0)

theorem advances_compileBranches :
    ∀ (branches : List Value) ⦃subject : String⦄ ⦃g g' : Group⦄ ⦃u : Unit⦄,
    Unambiguous (Value.wildcardNamesItems branches) →
    Settled g.nodeCounter subject →
    Yields (compileBranches check codec subject branches) g u g' → g.Advances g'
  | [] => by
    intro subject g g' u hnames hs h
    obtain ⟨-, rfl⟩ := Yields.pure_iff.1 h
    exact .refl _
  | branch :: rest => by
    intro subject g g' u hnames hs h
    rw [Value.wildcardNamesItems] at hnames
    rw [compileBranches] at h
    obtain ⟨u₁, g₁, hbranch, hrest⟩ := Yields.bind_iff.1 h
    have hfirst := advances_compileBranch branch hnames.left hs hbranch
    exact hfirst.trans
      (advances_compileBranches rest hnames.right (hs.mono hfirst.counter) hrest)
termination_by branches => (sizeOf branches, 0)

theorem advances_compileOptional : ∀ (v : Value) ⦃subject : String⦄ ⦃g g' : Group⦄ ⦃u : Unit⦄,
    Unambiguous v.wildcardNames → Settled g.nodeCounter subject →
    Yields (compileOptional check codec subject v) g u g' → g.Advances g'
  | v => by
    intro subject g g' u hnames hs h
    rw [compileOptional.eq_def] at h
    split at h
    · rw [Value.wildcardNames] at hnames
      exact advances_compileBranches _ hnames hs h
    · exact advances_compileBranch v hnames hs h
termination_by v => (sizeOf v, 1)

theorem advances_compileEntries :
    ∀ (entries : List (String × Value)) ⦃node : Nat⦄ ⦃subject : String⦄ ⦃g g' : Group⦄
    ⦃edges : Edges⦄,
    Unambiguous (Value.wildcardNamesEntries entries) → Settled g.nodeCounter subject →
    Yields (compileEntries check codec node subject entries) g edges g' →
    g.Advances g' ∧ edges.Drawn g.nodeCounter g'.nodeCounter subject
  | [] => by
    intro node subject g g' edges hnames hs h
    obtain ⟨rfl, rfl⟩ := Yields.pure_iff.1 h
    exact ⟨.refl _, .none _ _ subject⟩
  | (key, value) :: rest => by
    intro node subject g g' edges hnames hs h
    rw [Value.wildcardNamesEntries] at hnames
    rw [compileEntries_cons] at h
    obtain ⟨here, g₁, hentry, h⟩ := Yields.bind_iff.1 h
    obtain ⟨others, g₂, hrest, h⟩ := Yields.bind_iff.1 h
    obtain ⟨rfl, rfl⟩ := Yields.pure_iff.1 h
    have hfirst : g.Advances g₁ ∧ here.Drawn g.nodeCounter g₁.nodeCounter subject := by
      obtain ⟨kind, g₀, hkind, hkey⟩ := Yields.bind_iff.1 hentry
      obtain ⟨hresolve, rfl⟩ := Yields.compiling_lift_iff.1 hkind
      rcases hdirection : direction? kind with _ | x
      · cases kind with
        | inverse _ | wildcard _ | property _ => cases hdirection
        | operator _ => exact (Yields.throw_iff.1 hkey).elim
        | id =>
          obtain ⟨rfl, rfl⟩ := Yields.pure_iff.1 hkey
          exact ⟨.refl _, .none _ _ subject⟩
        | optional =>
          obtain ⟨u, g₂, hoptional, hend⟩ := Yields.bind_iff.1 hkey
          obtain ⟨rfl, rfl⟩ := Yields.pure_iff.1 hend
          exact ⟨advances_compileOptional value hnames.left.right hs hoptional, .none _ _ subject⟩
      · rw [compileKey_direction check codec node subject key value hdirection] at hkey
        obtain ⟨direction, g₂, hx, hproperty⟩ := Yields.bind_iff.1 hkey
        obtain ⟨hadv, hp⟩ := advances_direction hnames.left.left hresolve hdirection hx
        obtain ⟨hvalue, hdrawn⟩ := advances_compileProperty value hnames.left.right
          (hs.mono hadv.counter) hp hproperty
        exact ⟨hadv.trans hvalue,
          (Edges.Drawn.none _ _ subject).append hdrawn hadv.counter hvalue.counter⟩
    have hs := hs.mono hfirst.1.counter
    obtain ⟨hsecond, hothers⟩ := advances_compileEntries rest hnames.right hs hrest
    exact ⟨hfirst.1.trans hsecond,
      hfirst.2.append hothers hfirst.1.counter hsecond.counter⟩
termination_by entries => (sizeOf entries, 0)

end

end

end Pattern

end LinkedData
