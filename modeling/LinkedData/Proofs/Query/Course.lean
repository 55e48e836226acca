import LinkedData.Proofs.Query.Derivation
import LinkedData.Proofs.Query.Trail

/-!
# Compiling along the trail

`Course` follows the trail of a pattern from group to group. It knows what happens to the group
at each event and forgets how compiling got there, so a law about whole groups is an induction
on the course: what a node does when it begins and when it ends, and how an optional branch is
handed over. Compiling takes the course of its trail (`Pattern.course_of_compile`).
-/

namespace LinkedData

/-! ## Tokens in clauses -/

/-- The clause is a triple with the token in it. -/
def Clause.Mentions (token : String) : Clause → Prop
  | .triple t => token ∈ t.tokens
  | .filter _ => False

instance (token : String) : DecidablePred (Clause.Mentions token)
  | .triple t => inferInstanceAs (Decidable (token ∈ t.tokens))
  | .filter _ => inferInstanceAs (Decidable False)

/-- One of the clauses is a triple with the token in it. -/
def Mentioned (token : String) (clauses : List Clause) : Prop :=
  ∃ c ∈ clauses, c.Mentions token

instance (token : String) (clauses : List Clause) : Decidable (Mentioned token clauses) :=
  inferInstanceAs (Decidable (∃ c ∈ clauses, c.Mentions token))

theorem Mentioned.left {token : String} {cs : List Clause} (h : Mentioned token cs)
    (cs' : List Clause) : Mentioned token (cs ++ cs') :=
  h.imp fun _ hc => ⟨List.mem_append_left cs' hc.1, hc.2⟩

theorem Mentioned.right {token : String} {cs' : List Clause} (h : Mentioned token cs')
    (cs : List Clause) : Mentioned token (cs ++ cs') :=
  h.imp fun _ hc => ⟨List.mem_append_right cs hc.1, hc.2⟩

namespace Group

/-! ## What happens to a group -/

section

variable (g : Group) (clauses : List Clause)

@[simp] theorem append_nodeCounter : (g.append clauses).nodeCounter = g.nodeCounter := by
  rw [append]
  split <;> rfl

@[simp] theorem append_optionalDepth : (g.append clauses).optionalDepth = g.optionalDepth := by
  rw [append]
  split <;> rfl

@[simp] theorem append_nodes : (g.append clauses).nodes = g.nodes := by
  rw [append]
  split <;> rfl

@[simp] theorem append_projection : (g.append clauses).projection = g.projection := by
  rw [append]
  split <;> rfl

@[simp] theorem append_tupleVariables : (g.append clauses).tupleVariables = g.tupleVariables := by
  rw [append]
  split <;> rfl

@[simp] theorem exitOptional_projection : g.exitOptional.projection = g.projection := by
  rw [exitOptional]
  split <;> rfl

@[simp] theorem exitOptional_tupleVariables :
    g.exitOptional.tupleVariables = g.tupleVariables := by
  rw [exitOptional]
  split <;> rfl

end

end Group

/-- From the first group, along the trail, to the second group. -/
inductive Course (codec : Codec) : Trail → Group → Group → Prop where
  /-- nothing happens -/
  | refl (g : Group) : Course codec [] g g
  /-- first one thing, then the other -/
  | trans {a b : Trail} {g g' g'' : Group} (first : Course codec a g g')
      (second : Course codec b g' g'') : Course codec (a ++ b) g g''
  /-- a wildcard without a name -/
  | anonymous (g : Group) : Course codec [.anonymous] g g.anonymousVariable.2
  /-- a variable that the caller named -/
  | named (g : Group) (name : String) :
      Course codec [.named ("?" ++ name)] g (g.namedVariable name).2
  /-- a filter -/
  | filter (g : Group) (node : Nat) : Course codec [] g (g.freshFilterVariable node).2
  /-- a node, and all that is nested in it -/
  | node {entries : Node} {inverse : Bool} {trail : Trail} {clauses : List Clause} {g g' : Group}
      (inner : Course codec trail (g.opened entries inverse) g')
      (stated : ∀ token ∈ nodeTokens codec (subjectOf g.nodeCounter entries) entries,
        Mentioned token clauses) :
      Course codec
        (nodeTrail codec g.optionalDepth g.nodeCounter (.ofEdge inverse) entries trail)
        g (g'.append clauses)
  /-- an optional branch, and all that is nested in it -/
  | branch {entries : Node} {parent : String} {trail : Trail} {clauses : List Clause}
      {g g' : Group} (inner : Course codec trail (g.enterOptional.opened entries false) g')
      (stated : ∀ token ∈ nodeTokens codec (subjectOf g.nodeCounter entries) entries,
        Mentioned token clauses) :
      Course codec
        (nodeTrail codec (g.optionalDepth + 1) g.nodeCounter (.branch parent) entries trail)
        g ((g'.append clauses).handedOver g.nodeCounter (subjectOf g.nodeCounter entries)
          parent).exitOptional

namespace Course

variable {codec : Codec} {trail : Trail} {g g' : Group}

/-! ## What every course keeps -/

/-- Numbers are given away one after the other. -/
theorem counter (h : Course codec trail g g') :
    g'.nodeCounter = g.nodeCounter + trail.numbers := by
  induction h with
  | refl g | anonymous g | named g name | filter g node => rfl
  | trans first second ih₁ ih₂ => rw [ih₂, ih₁, Trail.numbers_append, Nat.add_assoc]
  | node inner stated ih =>
    rw [Group.append_nodeCounter, ih, numbers_nodeTrail]
    exact Nat.succ_add_eq_add_succ _ _
  | branch inner stated ih =>
    rw [Group.exitOptional_nodeCounter, Group.handedOver, Group.append_nodeCounter, ih,
      numbers_nodeTrail]
    exact Nat.succ_add_eq_add_succ _ _

/-- Every optional block that is opened is closed. -/
theorem depth (h : Course codec trail g g') : g'.optionalDepth = g.optionalDepth := by
  induction h with
  | refl g | anonymous g | named g name | filter g node => rfl
  | trans first second ih₁ ih₂ => exact ih₂.trans ih₁
  | node inner stated ih | branch inner stated ih =>
    simp [ih, Group.opened, Group.handedOver, Group.enterOptional]

/-- Nodes that were registered before stay registered. -/
theorem registered (h : Course codec trail g g') {k : Nat} (hk : k < g.nodeCounter) :
    Group.lookupNumber? k g'.nodes = Group.lookupNumber? k g.nodes := by
  induction h with
  | refl g | anonymous g | named g name | filter g node => rfl
  | trans first second ih₁ ih₂ => exact (ih₂ (first.counter ▸ Nat.lt_add_right _ hk)).trans (ih₁ hk)
  | node inner stated ih =>
    rw [Group.append_nodes, ih (Nat.lt_succ_of_lt hk)]
    exact Group.lookupNumber?_setNumber_of_ne (Nat.ne_of_lt hk) _ _
  | branch inner stated ih =>
    rw [Group.exitOptional_nodes, Group.handedOver, Group.append_nodes,
      Group.lookupNumber?_filter (Nat.ne_of_lt hk), ih (Nat.lt_succ_of_lt hk)]
    exact Group.lookupNumber?_setNumber_of_ne (Nat.ne_of_lt hk) _ _

/-- Outside of optional branches nothing is held back. -/
theorem buffer (h : Course codec trail g g') (hdepth : g.optionalDepth = 0)
    (hg : g.optionalBuffer = []) : g'.optionalBuffer = [] := by
  induction h with
  | refl g | anonymous g | named g name | filter g node => exact hg
  | trans first second ih₁ ih₂ => exact ih₂ (first.depth.trans hdepth) (ih₁ hdepth hg)
  | node inner stated ih =>
    have hinner := inner.depth.trans hdepth
    rw [Group.append, Group.inOptional, hinner]
    exact ih hdepth hg
  | branch inner stated ih =>
    -- the branch is the outermost one, so closing it seals the block
    have hinner := inner.depth
    rw [Group.exitOptional]
    simp [Group.handedOver, hinner, Group.opened, Group.enterOptional, hdepth]

end Course

namespace Pattern

/-! ## Keys and identifiers -/

theorem course_wildcardToken (codec : Codec) {name? : Option String} {g g' : Group}
    {token : String} (h : Yields (wildcardToken name?) g token g') :
    Course codec (wildcardTrail name?) g g' ∧
      ∀ name ∈ (wildcardTrail name?).names, name = token := by
  cases makes_of_wildcardToken h with
  | anonymous => exact ⟨.anonymous g, nofun⟩
  | named _ => exact ⟨.named g _, fun name hname => List.mem_singleton.1 hname⟩

/-- The edge of a key. -/
theorem course_direction (codec : Codec) {kind : PatternKey} {x : Compiling Direction}
    {d : Direction} {g g' : Group} (hx : direction? kind = some x) (h : Yields x g d g') :
    Course codec kind.trail g g' ∧ (∀ name ∈ kind.trail.names, name = d.predicate) ∧
      kind.isEdge = true ∧ ∀ subject, kind.place? subject = some (.ofEdge d.inverse) := by
  cases turns_of_direction hx h with
  | inverse _ | property => exact ⟨.refl _, nofun, rfl, fun _ => rfl⟩
  | wildcard made =>
    obtain ⟨hcourse, hnames⟩ := course_wildcardToken codec made
    exact ⟨hcourse, hnames, rfl, fun _ => rfl⟩

theorem course_compileFilter {check : RegexCheck} {codec : Codec} {entries : Node} {node : Nat}
    {g g' : Group} {filter : BoundFilter}
    (h : Yields (compileFilter check codec entries node) g filter g') :
    Course codec [] g g' := by
  obtain ⟨f, body, -, -, -, rfl⟩ := compileFilter_spec h
  exact .filter _ node

/-! ## What edges state -/

/-- The edges of the node with the subject are about it, and state all of the tokens. -/
structure Edges.States (subject : String) (tokens : List String) (edges : Edges) : Prop where
  /-- the subject is in each of them -/
  subject : ∀ t ∈ edges.triples, subject ∈ t.tokens
  /-- each token is in one of them -/
  tokens : ∀ token ∈ tokens, ∃ t ∈ edges.triples, token ∈ t.tokens

theorem Edges.States.none (subject : String) : Edges.none.States subject [] :=
  ⟨nofun, nofun⟩

theorem Edges.States.append {subject : String} {as bs : List String} {a b : Edges}
    (ha : a.States subject as) (hb : b.States subject bs) :
    (a.append b).States subject (as ++ bs) where
  subject := by
    intro t ht
    rcases List.mem_append.1 ht with ht | ht
    · exact ha.subject t ht
    · exact hb.subject t ht
  tokens := by
    intro token htoken
    rcases List.mem_append.1 htoken with htoken | htoken
    · obtain ⟨t, ht, hin⟩ := ha.tokens token htoken
      exact ⟨t, List.mem_append_left _ ht, hin⟩
    · obtain ⟨t, ht, hin⟩ := hb.tokens token htoken
      exact ⟨t, List.mem_append_right _ ht, hin⟩

/-- One edge states the variable in place of its property and what it leads to. -/
theorem Edges.States.single {subject object : String} {direction : Direction}
    {keys values : List String} (hkeys : ∀ token ∈ keys, token = direction.predicate)
    (hvalues : ∀ token ∈ values, token = object) (filters : List BoundFilter) :
    (Edges.mk [direction.edge subject object] filters).States subject (keys ++ values) := by
  have hedge : subject ∈ (direction.edge subject object).tokens ∧
      direction.predicate ∈ (direction.edge subject object).tokens ∧
      object ∈ (direction.edge subject object).tokens := by
    rw [Direction.edge]
    split <;> simp [Triple.tokens]
  refine ⟨fun t ht => ?_, fun token htoken => ⟨_, List.mem_singleton_self _, ?_⟩⟩
  · obtain rfl := List.mem_singleton.1 ht
    exact hedge.1
  · rcases List.mem_append.1 htoken with htoken | htoken
    · exact hkeys token htoken ▸ hedge.2.1
    · exact hvalues token htoken ▸ hedge.2.2

/-- A node that ends writes clauses that state its subject and all that its edges state. -/
theorem closed_of_closeNode {codec : Codec} {vars : NodeVariables} {edges : Edges}
    {entries : Node} {g g' : Group} {u : Unit}
    (hedges : edges.States vars.subject (entries.flatMap (entryTokens codec)))
    (h : Yields (closeNode vars edges) g u g') :
    ∃ clauses, g' = g.append clauses ∧
      ∀ token ∈ nodeTokens codec vars.subject entries, Mentioned token clauses := by
  refine ⟨_, Yields.change_iff.1 h, fun token htoken => Mentioned.left ?_ _⟩
  rcases ht : edges.triples with _ | ⟨t, ts⟩
  · -- no edge at all: an arbitrary property is asked for
    have hsubject : token = vars.subject := by
      rcases List.mem_cons.1 htoken with rfl | htoken
      · rfl
      · obtain ⟨t, hmem, -⟩ := hedges.tokens token htoken
        rw [ht] at hmem
        cases hmem
    exact ⟨_, List.mem_singleton_self _, hsubject ▸ List.mem_cons_self⟩
  · have hstated : ∃ t ∈ edges.triples, token ∈ t.tokens := by
      rcases List.mem_cons.1 htoken with rfl | htoken
      · have hmem : t ∈ edges.triples := ht ▸ List.mem_cons_self
        exact ⟨t, hmem, hedges.subject t hmem⟩
      · exact hedges.tokens token htoken
    rw [ht] at hstated
    obtain ⟨t', hmem, hin⟩ := hstated
    exact ⟨.triple t', List.mem_map_of_mem hmem, hin⟩

/-! ## Compiling takes the course of its trail -/

/-- A node that was compiled: it began, its entries took their course, and it ended with clauses
that state all its tokens. -/
structure Visited (check : RegexCheck) (codec : Codec) (entries : Node) (inverse : Bool) (g : Group)
    (compiled : CompiledNode) (g' : Group) : Prop where
  /-- its number -/
  number : compiled.node = g.nodeCounter
  /-- its subject -/
  subject : compiled.subject = subjectOf g.nodeCounter entries
  /-- its course -/
  course : ∃ g₁ clauses,
    Course codec (trailEntries codec g.optionalDepth (g.nodeCounter + 1) compiled.subject entries)
      (g.opened entries inverse) g₁ ∧
    (∀ token ∈ nodeTokens codec compiled.subject entries, Mentioned token clauses) ∧
    g' = g₁.append clauses

/-- Nothing nested in a node takes its place in the table. -/
theorem Visited.registered {check : RegexCheck} {codec : Codec} {entries : Node} {inverse : Bool}
    {g g' : Group} {compiled : CompiledNode}
    (h : Visited check codec entries inverse g compiled g') :
    Group.lookupNumber? compiled.node g'.nodes = some compiled.subject := by
  obtain ⟨hnumber, hsubject, g₁, clauses, hinner, -, rfl⟩ := h
  rw [hnumber, Group.append_nodes, hinner.registered (Nat.lt_succ_self _), hsubject]
  exact Group.lookupNumber?_setNumber _ _ _

/-- A node that no optional branch begins with takes the course of its trail. -/
theorem Visited.course_trail {check : RegexCheck} {codec : Codec} {entries : Node} {inverse : Bool}
    {g g' : Group} {compiled : CompiledNode} (h : Visited check codec entries inverse g compiled g')
    (hfilter : Filter.isFilter entries = false) :
    Course codec (trail codec g.optionalDepth g.nodeCounter (.ofEdge inverse) (.node entries))
      g g' := by
  obtain ⟨-, hsubject, g₁, clauses, hinner, hstated, rfl⟩ := h
  rw [hsubject] at hinner hstated
  rw [trail, hfilter, if_neg Bool.false_ne_true, Place.depth_ofEdge]
  exact .node hinner hstated

/-- A part leads from the first group to the second one along its trail, and its edges state what
they have to. For a node that depends on the place where it stands. -/
def Follows (check : RegexCheck) (codec : Codec) : (task : Task) → Group → task.Outcome → Group →
    Prop
  | .node es inverse, g, compiled, g' => Visited check codec es inverse g compiled g'
  | .object _ inverse v, g, r, g' =>
    Course codec (trail codec g.optionalDepth g.nodeCounter (.ofEdge inverse) v) g g' ∧
      ∀ token ∈ valueTokens codec v, token = r.1
  | .objects _ subject d items, g, edges, g' =>
    Course codec (trailItems codec g.optionalDepth g.nodeCounter (.ofEdge d.inverse) items) g g' ∧
      ∀ keys : List String, (∀ token ∈ keys, token = d.predicate) →
        edges.States subject (items.flatMap fun v => keys ++ valueTokens codec v)
  | .property _ subject d v, g, edges, g' =>
    Course codec (trail codec g.optionalDepth g.nodeCounter (.ofEdge d.inverse) v) g g' ∧
      ∀ keys : List String, (∀ token ∈ keys, token = d.predicate) →
        edges.States subject (v.elements.flatMap fun v => keys ++ valueTokens codec v)
  | .branch subject v, g, _, g' | .options subject v, g, _, g' =>
    Course codec (trail codec g.optionalDepth g.nodeCounter (.branch subject) v) g g'
  | .branches subject vs, g, _, g' =>
    Course codec (trailItems codec g.optionalDepth g.nodeCounter (.branch subject) vs) g g'
  | .entries _ subject es, g, edges, g' =>
    Course codec (trailEntries codec g.optionalDepth g.nodeCounter subject es) g g' ∧
      edges.States subject (es.flatMap (entryTokens codec))

theorem Compiles.follows {check : RegexCheck} {codec : Codec} {task : Task} {g g' : Group}
    {r : task.Outcome}
    (h : Compiles check codec task g r g') : Follows check codec task g r g' := by
  induction h with
  | node opened inner closed ih =>
    obtain ⟨rfl, rfl, rfl⟩ := opened_of_yields opened
    obtain ⟨hinner, hstates⟩ := ih
    obtain ⟨clauses, hg, hstated⟩ := closed_of_closeNode hstates closed
    exact ⟨rfl, rfl, _, clauses, hinner, hstated, hg⟩
  | nested hfilter inner ih => exact ⟨ih.course_trail hfilter, nofun⟩
  | filter hfilter run =>
    rw [Follows, trail, hfilter, if_pos rfl]
    exact ⟨course_compileFilter run, nofun⟩
  | @wildcard node inverse name? token g g' run =>
    obtain ⟨hcourse, hnames⟩ := course_wildcardToken codec run
    rw [Follows, trail]
    refine ⟨hcourse, fun name hname => hnames name ?_⟩
    cases name? with
    | none => cases hname
    | some name => exact hname
  | scalar hscalar hliteral =>
    rw [Follows, trail_scalar codec _ _ _ hscalar, valueTokens_scalar codec hscalar, hliteral]
    exact ⟨.refl _, fun token htoken => List.mem_singleton.1 htoken⟩
  | noItems => exact ⟨.refl _, fun keys hkeys => .none _⟩
  | items first others ih₁ ih₂ =>
    obtain ⟨hfirst, hobject⟩ := ih₁
    obtain ⟨hsecond, hothers⟩ := ih₂
    rw [hfirst.counter, hfirst.depth] at hsecond
    exact ⟨hfirst.trans hsecond, fun keys hkeys =>
      (Edges.States.single hkeys hobject _).append (hothers keys hkeys)⟩
  | list inner ih =>
    rw [Follows, trail]
    exact ih
  | single hlist inner ih =>
    rw [Follows, Value.elements_single hlist]
    refine ⟨ih.1, fun keys hkeys => ?_⟩
    rw [List.flatMap_singleton]
    exact .single hkeys ih.2 _
  | @branch subject entries compiled g g' hfilter inner ih =>
    have hregistered := ih.registered
    obtain ⟨hnumber, hsubject, g₁, clauses, hinner, hstated, rfl⟩ := ih
    rw [hsubject] at hregistered hinner hstated
    rw [Follows, Group.demote_eq_handedOver hregistered, hnumber, trail, hfilter,
      if_neg Bool.false_ne_true]
    exact .branch hinner hstated
  | noBranches => exact .refl _
  | branches first others ih₁ ih₂ =>
    rw [Follows, ih₁.counter, ih₁.depth] at ih₂
    exact ih₁.trans ih₂
  | several inner ih =>
    rw [Follows, trail]
    exact ih
  | one hlist inner ih => exact ih
  | noEntries => exact ⟨.refl _, .none _⟩
  | identifier hkey others ih =>
    rw [Follows, trailEntries_cons, List.flatMap_cons, trailEntry, entryTokens, hkey]
    exact ih
  | optional hkey first others ih₁ ih₂ =>
    obtain ⟨hsecond, hothers⟩ := ih₂
    rw [ih₁.counter, ih₁.depth] at hsecond
    rw [Follows, trailEntries_cons, List.flatMap_cons, trailEntry, entryTokens, hkey]
    exact ⟨ih₁.trans hsecond, hothers⟩
  | edge hkey hx turned first others ih₁ ih₂ =>
    obtain ⟨hcourse, hkeys, hedge, hplace⟩ := course_direction codec hx turned
    obtain ⟨hvalue, hstates⟩ := ih₁
    obtain ⟨hsecond, hothers⟩ := ih₂
    rw [hcourse.counter, hcourse.depth] at hvalue
    have hfirst := hcourse.trans hvalue
    rw [hfirst.counter, hfirst.depth] at hsecond
    rw [Follows, trailEntries_cons, List.flatMap_cons, trailEntry, entryTokens, hkey]
    dsimp only
    rw [hplace, hedge]
    exact ⟨hfirst.trans hsecond, (hstates _ hkeys).append hothers⟩

theorem course_of_compileInto {check : RegexCheck} {codec : Codec} {pattern : Node}
    {compiled : CompiledNode} {g g' : Group}
    (h : Yields (compileInto check codec pattern) g compiled g') :
    Course codec (trail codec g.optionalDepth g.nodeCounter .plain (.node pattern)) g g' := by
  obtain ⟨hfilter, hnode⟩ := compiles_of_compileInto h
  exact hnode.follows.course_trail hfilter

/-- Compiling a pattern takes the course of its trail. -/
theorem course_of_compile {check : RegexCheck} {codec : Codec} {pattern : Node} {g : Group}
    (h : compile check codec pattern = .ok g) : Course codec (trailOf codec pattern) .empty g := by
  obtain ⟨compiled, hrun⟩ := yields_of_compile h
  exact course_of_compileInto (g := .empty) hrun

/-- A filter is no pattern. -/
theorem isFilter_of_compile {check : RegexCheck} {codec : Codec} {pattern : Node} {g : Group}
    (h : compile check codec pattern = .ok g) : Filter.isFilter pattern = false := by
  obtain ⟨compiled, hrun⟩ := yields_of_compile h
  exact (compiles_of_compileInto hrun).1

/-- Whether a pattern compiles to a group with a property can be evaluated. -/
theorem compiles_of_any (check : RegexCheck) (codec : Codec) (pattern : Node) {p : Group → Prop}
    [DecidablePred p] (h : (compile check codec pattern).toOption.any (p ·) = true) :
    ∃ g, compile check codec pattern = .ok g ∧ p g := by
  rcases hg : compile check codec pattern with e | g
  · rw [hg] at h
    cases h
  · rw [hg] at h
    exact ⟨g, rfl, of_decide_eq_true h⟩

end Pattern

end LinkedData
