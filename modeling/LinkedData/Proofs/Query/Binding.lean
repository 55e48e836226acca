import LinkedData.Proofs.Query.FilterVariable
import LinkedData.Proofs.Query.Shown

/-!
# Filters and the edges to their variables

A filter is compiled for a node behind a key (`Pattern.Filters`), and an edge of the node leads to
its variable in the direction of that key. While the node is open, its edges are kept apart from
the clauses of the group; `Pattern.Edges.Binds` is what is known about them meanwhile. When the node
ends, the triples are written before the filters (`Pattern.Edges.clauses`), so each filter stands
behind its edge.
-/

namespace LinkedData

/-! ## Where the clauses stand -/

/-- The token is at that end of the triple where an edge in the direction leads to, and nowhere
else in it. -/
structure Triple.LeadsTo (t : Triple) (inverse : Bool) (token : String) : Prop where
  /-- the edge leads to the token -/
  object : t.object = token ↔ inverse = false
  /-- the edge comes from the token -/
  subject : t.subject = token ↔ inverse = true
  /-- the token is no property -/
  predicate : t.predicate ≠ token

/-- A triple that leads to the variable of the filter stands before the filter. -/
def BoundFilter.Scoped (f : BoundFilter) (inverse : Bool) (clauses : List Clause) : Prop :=
  ∃ before t between after,
    clauses = before ++ .triple t :: (between ++ .filter f :: after) ∧ t.LeadsTo inverse f.token

section

variable {f : BoundFilter} {inverse : Bool} {clauses : List Clause}

theorem BoundFilter.Scoped.append_right (h : f.Scoped inverse clauses) (more : List Clause) :
    f.Scoped inverse (clauses ++ more) := by
  obtain ⟨before, t, between, after, rfl, ht⟩ := h
  exact ⟨before, t, between, after ++ more, by simp, ht⟩

theorem BoundFilter.Scoped.append_left (h : f.Scoped inverse clauses) (more : List Clause) :
    f.Scoped inverse (more ++ clauses) := by
  obtain ⟨before, t, between, after, rfl, ht⟩ := h
  exact ⟨more ++ before, t, between, after, by simp, ht⟩

theorem Triple.LeadsTo.substitute {t : Triple} {old new : String} {node number : Nat}
    (h : t.LeadsTo inverse (Group.filterVariable node number)) (hold : NoFilter old)
    (hnew : NoFilter new) :
    (t.substitute old new).LeadsTo inverse (Group.filterVariable node number) where
  object := (hold.replaceToken_eq_iff hnew _ _ _).trans h.object
  subject := (hold.replaceToken_eq_iff hnew _ _ _).trans h.subject
  predicate := fun heq => h.predicate ((hold.replaceToken_eq_iff hnew _ _ _).1 heq)

theorem BoundFilter.Scoped.substitute {node number : Nat} {old new : String}
    (h : f.Scoped inverse clauses) (htoken : f.token = Group.filterVariable node number)
    (hold : NoFilter old) (hnew : NoFilter new) :
    f.Scoped inverse (clauses.map (Clause.substitute old new)) := by
  obtain ⟨before, t, between, after, rfl, ht⟩ := h
  rw [htoken] at ht
  refine ⟨before.map (Clause.substitute old new), t.substitute old new,
    between.map (Clause.substitute old new), after.map (Clause.substitute old new), ?_,
    htoken ▸ ht.substitute hold hnew⟩
  simp [Clause.substitute]

theorem Clause.mentions_substitute_iff {old new : String} (hold : NoFilter old)
    (hnew : NoFilter new) (c : Clause) (node number : Nat) :
    (c.substitute old new).Mentions (Group.filterVariable node number) ↔
      c.Mentions (Group.filterVariable node number) := by
  cases c with
  | filter f => exact Iff.rfl
  | triple t =>
    have hiff := fun token => hold.replaceToken_eq_iff hnew token node number
    simp only [Clause.substitute, Clause.Mentions, Triple.substitute, Triple.mem_tokens,
      eq_comm (a := Group.filterVariable node number), hiff]

end

namespace Group

/-- How many triples of the group are about the token. -/
def uses (g : Group) (token : String) : Nat :=
  g.clauses.countP (Clause.Mentions token)

/-- The clauses that must match, those that are held back, and the blocks. -/
def scopes (g : Group) : List (List Clause) :=
  g.required :: g.optionalBuffer :: g.optionalBlocks

variable {g g' : Group}

theorem uses_append (g : Group) (clauses : List Clause) (token : String) :
    (g.append clauses).uses token = g.uses token + clauses.countP (Clause.Mentions token) := by
  rw [append]
  split <;> simp only [uses, Group.clauses, List.countP_append] <;> omega

theorem uses_exitOptional (g : Group) (token : String) :
    g.exitOptional.uses token = g.uses token := by
  rw [uses, clauses_exitOptional, uses]

/-- New clauses come behind others. -/
theorem mem_scopes_append {clauses more : List Clause} (h : clauses ∈ (g.append more).scopes) :
    clauses ∈ g.scopes ∨ ∃ old ∈ g.scopes, clauses = old ++ more := by
  rw [append] at h
  simp only [scopes, List.mem_cons] at h ⊢
  split at h
  · rcases h with h | rfl | h
    · exact .inl (.inl h)
    · exact .inr ⟨_, .inr (.inl rfl), rfl⟩
    · exact .inl (.inr (.inr h))
  · rcases h with rfl | h
    · exact .inr ⟨_, .inl rfl, rfl⟩
    · exact .inl (.inr h)

theorem uses_demote {parent : String} (node node' number : Nat)
    (hsubject : ∀ subject, lookupNumber? node g.nodes = some subject → NoFilter subject)
    (hparent : NoFilter parent) :
    (g.demote node parent).uses (filterVariable node' number) =
      g.uses (filterVariable node' number) := by
  rw [demote]
  split
  · rfl
  · rename_i subject hlookup
    have hiff := Clause.mentions_substitute_iff (hsubject subject hlookup) hparent
    simp [uses, clauses, List.countP_append, List.countP_map, Function.comp_def, hiff]

end Group

/-! ## Where filters come from -/

/-- Is the key that of an edge that is followed backwards? -/
def PatternKey.isInverse : PatternKey → Bool
  | .inverse _ => true
  | .id | .optional | .operator _ | .wildcard _ | .property _ => false

namespace Pattern

variable {check : RegexCheck} {codec : Codec} {pattern : Node}

/-- Compiling the pattern comes to a node with the number, and the value is what an entry of it
holds, or an element of that. -/
def Holds (check : RegexCheck) (codec : Codec) (pattern : Node) (node : Nat) (kind : PatternKey)
    (v : Value) : Prop :=
  ∃ (subject key : String) (value : Value) (rest : Node) (g : Group),
    Reached check codec pattern (.entries node subject ((key, value) :: rest)) g ∧
      PatternKey.resolve key = .ok kind ∧ v ∈ value.elements

/-- The filter comes from a node behind a key of the kind. -/
inductive Filters (check : RegexCheck) (codec : Codec) (pattern : Node) (kind : PatternKey)
    (f : BoundFilter) : Prop where
  /-- when compiling comes to the node behind the key, the filter is what it is compiled to -/
  | behind {node : Nat} {entries : Node} {g g' : Group}
      (holds : Holds check codec pattern node kind (.node entries))
      (hfilter : Filter.isFilter entries = true)
      (reached : Reached check codec pattern (.object node kind.isInverse (.node entries)) g)
      (run : Yields (compileFilter check codec entries node) g f g')

theorem Filters.token {kind : PatternKey} {f : BoundFilter}
    (h : Filters check codec pattern kind f) :
    ∃ node number, f.token = Group.filterVariable node number := by
  obtain ⟨-, -, -, run⟩ := h
  obtain ⟨f, body, -, -, rfl, -⟩ := compileFilter_spec run
  exact ⟨_, _, rfl⟩

theorem isInverse_of_direction {kind : PatternKey} {x : Compiling Direction} {d : Direction}
    {g g' : Group} (hx : direction? kind = some x) (h : Yields x g d g') :
    kind.isInverse = d.inverse := by
  cases turns_of_direction hx h with
  | inverse _ | wildcard _ | property => rfl

/-- A part that is reached holds values behind a key, and has the direction of that key. -/
def Task.Behind (check : RegexCheck) (codec : Codec) (pattern : Node) : Task → Prop
  | .object number inverse v =>
    ∃ kind : PatternKey, kind.isInverse = inverse ∧ Holds check codec pattern number kind v
  | .objects number _ d items =>
    ∃ kind : PatternKey, kind.isInverse = d.inverse ∧
      ∀ v ∈ items, Holds check codec pattern number kind v
  | .property number _ d v =>
    ∃ kind : PatternKey, kind.isInverse = d.inverse ∧
      ∀ item ∈ v.elements, Holds check codec pattern number kind item
  | .node _ _ | .branch _ _ | .branches _ _ | .options _ _ | .entries _ _ _ => True

theorem Reached.behind {task : Task} {g : Group} (h : Reached check codec pattern task g) :
    task.Behind check codec pattern := by
  induction h with
  | root _ => trivial
  | step hreached hs ih =>
    cases hs with
    | entries _ | node _ | alternative _ | branch | branches _ | several | one _ | options _
      | rest _ => trivial
    | item =>
      obtain ⟨kind, hinverse, hitems⟩ := ih
      exact ⟨kind, hinverse, hitems _ List.mem_cons_self⟩
    | items _ =>
      obtain ⟨kind, hinverse, hitems⟩ := ih
      exact ⟨kind, hinverse, fun v hv => hitems v (List.mem_cons_of_mem _ hv)⟩
    | list => exact ih
    | single hlist =>
      obtain ⟨kind, hinverse, hitems⟩ := ih
      rw [Value.elements_single hlist] at hitems
      exact ⟨kind, hinverse, hitems _ List.mem_cons_self⟩
    | property hkind hx turned =>
      exact ⟨_, isInverse_of_direction hx turned, fun v hv => ⟨_, _, _, _, _, hreached, hkind, hv⟩⟩

/-! ## The edges of an open node -/

/-- The edges of a node, compiled while the numbers of its filters went from the first bound to the
second one: filter variables in them are the node's own and have numbers between the bounds, and
to that of each filter exactly one edge leads, in the direction of its key. -/
structure Edges.Binds (check : RegexCheck) (codec : Codec) (pattern : Node) (node low high : Nat)
    (edges : Edges) : Prop where
  /-- no other filter variable is in an edge -/
  tokens : ∀ t ∈ edges.triples, ∀ n k, Group.filterVariable n k ∈ t.tokens →
    n = node ∧ low ≤ k ∧ k < high
  /-- each filter has its edge -/
  filters : ∀ f ∈ edges.filters, ∃ kind, Filters check codec pattern kind f ∧
    (∃ t ∈ edges.triples, t.LeadsTo kind.isInverse f.token) ∧
    edges.triples.countP (f.token ∈ ·.tokens) = 1

theorem Edges.Binds.none (node bound : Nat) :
    Edges.none.Binds check codec pattern node bound bound :=
  ⟨nofun, nofun⟩

variable {node low mid high : Nat} {a b edges : Edges}

theorem Edges.Binds.mono (h : edges.Binds check codec pattern node mid high) (hlow : low ≤ mid) :
    edges.Binds check codec pattern node low high where
  tokens := fun t ht n k hmem =>
    (h.tokens t ht n k hmem).imp_right fun hk => ⟨hlow.trans hk.1, hk.2⟩
  filters := h.filters

/-- A filter of the edges has a number between the bounds. -/
theorem Edges.Binds.token (h : edges.Binds check codec pattern node low high) {f : BoundFilter}
    (hf : f ∈ edges.filters) :
    ∃ k, f.token = Group.filterVariable node k ∧ low ≤ k ∧ k < high := by
  obtain ⟨kind, hfilters, -, hcount⟩ := h.filters f hf
  obtain ⟨n, k, htoken⟩ := hfilters.token
  obtain ⟨t, ht, hmem⟩ := List.countP_pos_iff.1 (Nat.lt_of_lt_of_eq Nat.one_pos hcount.symm)
  have hmem : f.token ∈ t.tokens := of_decide_eq_true hmem
  rw [htoken] at hmem
  obtain ⟨rfl, hlow, hhigh⟩ := h.tokens t ht n k hmem
  exact ⟨k, htoken, hlow, hhigh⟩

/-- Filters of other numbers are in none of the edges. -/
theorem Edges.Binds.count_eq_zero (h : edges.Binds check codec pattern node low high) {n k : Nat}
    (hother : ¬ (n = node ∧ low ≤ k ∧ k < high)) :
    edges.triples.countP (Group.filterVariable n k ∈ ·.tokens) = 0 := by
  refine List.countP_eq_zero.2 fun t ht hmem => hother ?_
  exact h.tokens t ht n k (of_decide_eq_true hmem)

/-- What comes later has higher numbers. -/
theorem Edges.Binds.append (ha : a.Binds check codec pattern node low mid)
    (hb : b.Binds check codec pattern node mid high) (hlow : low ≤ mid) (hhigh : mid ≤ high) :
    (a.append b).Binds check codec pattern node low high where
  tokens := by
    intro t ht n k hmem
    rcases List.mem_append.1 ht with ht | ht
    · obtain ⟨hn, hk, hk'⟩ := ha.tokens t ht n k hmem
      exact ⟨hn, hk, hk'.trans_le hhigh⟩
    · obtain ⟨hn, hk, hk'⟩ := hb.tokens t ht n k hmem
      exact ⟨hn, hlow.trans hk, hk'⟩
  filters := by
    intro f hf
    rcases List.mem_append.1 hf with hf | hf
    · obtain ⟨k, htoken, -, hk⟩ := ha.token hf
      obtain ⟨kind, hfilters, ⟨t, ht, hleads⟩, hcount⟩ := ha.filters f hf
      refine ⟨kind, hfilters, ⟨t, List.mem_append_left _ ht, hleads⟩, ?_⟩
      have hzero := hb.count_eq_zero (n := node) (k := k) (by omega)
      rw [← htoken] at hzero
      rw [Edges.append, List.countP_append, hcount, hzero]
    · obtain ⟨k, htoken, hk, -⟩ := hb.token hf
      obtain ⟨kind, hfilters, ⟨t, ht, hleads⟩, hcount⟩ := hb.filters f hf
      refine ⟨kind, hfilters, ⟨t, List.mem_append_right _ ht, hleads⟩, ?_⟩
      have hzero := ha.count_eq_zero (n := node) (k := k) (by omega)
      rw [← htoken] at hzero
      rw [Edges.append, List.countP_append, hcount, hzero]

/-- What an edge leads to: a token that is no filter variable, or that of the one filter that comes
with it. -/
def Leads (check : RegexCheck) (codec : Codec) (pattern : Node) (node low high : Nat)
    (inverse : Bool) (r : String × List BoundFilter) : Prop :=
  (NoFilter r.1 ∧ r.2 = []) ∨
    ∃ f kind, r = (f.token, [f]) ∧ Filters check codec pattern kind f ∧ kind.isInverse = inverse ∧
      f.token = Group.filterVariable node low ∧ low < high

theorem Direction.leadsTo_edge {d : Direction} {subject token : String} (hs : subject ≠ token)
    (hp : d.predicate ≠ token) : (d.edge subject token).LeadsTo d.inverse token := by
  rw [Direction.edge]
  rcases d.inverse with _ | _
  · exact ⟨by simp, by simp [hs], hp⟩
  · exact ⟨by simp [hs], by simp, hp⟩

theorem Direction.mem_tokens_edge {d : Direction} {subject object token : String} :
    token ∈ (d.edge subject object).tokens ↔
      token = subject ∨ token = d.predicate ∨ token = object := by
  rw [Direction.edge]
  split
  · rw [Triple.mem_tokens]
    tauto
  · exact Triple.mem_tokens

theorem Edges.Binds.single {subject object : String} {filters : List BoundFilter} {d : Direction}
    (hs : NoFilter subject) (hp : NoFilter d.predicate)
    (h : Leads check codec pattern node low high d.inverse (object, filters)) :
    (Edges.mk [d.edge subject object] filters).Binds check codec pattern node low high := by
  rcases h with ⟨ho, hnone⟩ | ⟨f, kind, heq, hfilters, hinverse, htoken, hlt⟩
  · obtain rfl : filters = [] := hnone
    refine ⟨fun t ht n k hmem => ?_, nofun⟩
    obtain rfl := List.mem_singleton.1 ht
    rcases Direction.mem_tokens_edge.1 hmem with h | h | h
    · exact absurd h.symm (hs n k)
    · exact absurd h.symm (hp n k)
    · exact absurd h.symm (ho n k)
  · obtain ⟨rfl, rfl⟩ := Prod.mk.inj heq
    refine ⟨fun t ht n k hmem => ?_, fun f' hf' => ?_⟩
    · obtain rfl := List.mem_singleton.1 ht
      rcases Direction.mem_tokens_edge.1 hmem with h | h | h
      · exact absurd h.symm (hs n k)
      · exact absurd h.symm (hp n k)
      · obtain ⟨rfl, rfl⟩ := filterVariable_injective (h.trans htoken)
        exact ⟨rfl, Nat.le_refl _, hlt⟩
    · obtain rfl := List.mem_singleton.1 hf'
      have hleads : (d.edge subject f'.token).LeadsTo kind.isInverse f'.token := by
        rw [hinverse]
        exact Direction.leadsTo_edge (htoken ▸ hs _ _) (htoken ▸ hp _ _)
      refine ⟨kind, hfilters, ⟨_, List.mem_singleton_self _, hleads⟩, ?_⟩
      have hmem : f'.token ∈ (d.edge subject f'.token).tokens :=
        Direction.mem_tokens_edge.2 (.inr (.inr rfl))
      simp [hmem]

/-! ## A node ends -/

/-- The clauses of edges: first the triples, and then the filters. -/
def Edges.clauses (edges : Edges) : List Clause :=
  edges.triples.map .triple ++ edges.filters.map .filter

theorem Edges.countP_clauses (edges : Edges) (token : String) :
    edges.clauses.countP (Clause.Mentions token) =
      edges.triples.countP (token ∈ ·.tokens) := by
  have hfilters : (edges.filters.map Clause.filter).countP (Clause.Mentions token) = 0 := by
    refine List.countP_eq_zero.2 fun c hc hmentions => ?_
    obtain ⟨f, -, rfl⟩ := List.mem_map.1 hc
    exact of_decide_eq_true hmentions
  rw [Edges.clauses, List.countP_append, hfilters, List.countP_map, Nat.add_zero]
  rfl

/-- The triples come first, so each filter stands behind the edge to its variable. -/
theorem Edges.Binds.scoped (h : edges.Binds check codec pattern node low high) {f : BoundFilter}
    (hf : f ∈ edges.filters) :
    ∃ kind, Filters check codec pattern kind f ∧ f.Scoped kind.isInverse edges.clauses := by
  obtain ⟨kind, hfilters, ⟨t, ht, hleads⟩, -⟩ := h.filters f hf
  obtain ⟨before, between, htriples⟩ := List.append_of_mem ht
  obtain ⟨front, after, hlist⟩ := List.append_of_mem hf
  refine ⟨kind, hfilters, before.map .triple, t, between.map .triple ++ front.map .filter,
    after.map .filter, ?_, hleads⟩
  rw [Edges.clauses, htriples, hlist]
  simp

/-- An arbitrary edge takes the place of none. -/
theorem Edges.Binds.closing (h : edges.Binds check codec pattern node low high) {t : Triple}
    (ht : ∀ n k, Group.filterVariable n k ∉ t.tokens) :
    (Edges.mk (if edges.triples.isEmpty then [t] else edges.triples) edges.filters).Binds
      check codec pattern node low high := by
  rcases htriples : edges.triples with _ | ⟨first, rest⟩
  · have hnone : edges.filters = [] := by
      refine List.eq_nil_iff_forall_not_mem.2 fun f hf => ?_
      obtain ⟨kind, -, ⟨t, hmem, -⟩, -⟩ := h.filters f hf
      rw [htriples] at hmem
      cases hmem
    rw [hnone]
    refine ⟨fun t' ht' n k hmem => ?_, nofun⟩
    obtain rfl := List.mem_singleton.1 ht'
    exact absurd hmem (ht n k)
  · rw [List.isEmpty_cons, if_neg Bool.false_ne_true, ← htriples]
    exact h

/-- When a node ends, filter variables of other nodes are used as often as before. -/
theorem Edges.Binds.uses_append (h : edges.Binds check codec pattern node low high) (g : Group)
    {n : Nat} (hn : n ≠ node) (k : Nat) :
    (g.append edges.clauses).uses (Group.filterVariable n k) =
      g.uses (Group.filterVariable n k) := by
  rw [Group.uses_append, Edges.countP_clauses, h.count_eq_zero fun hk => hn hk.1, Nat.add_zero]

end Pattern

end LinkedData
