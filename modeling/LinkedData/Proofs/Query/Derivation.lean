import LinkedData.Proofs.Query.Reached

/-!
# Runs of compiling, part by part

`Compiles` tells how a part of a pattern is compiled: from which group, with which outcome, and
into which group. It has a constructor for each way in which a part is put together from smaller
ones, so a law about every part is one induction, and not one for each of the functions that call
each other. It holds of the runs of these functions and of nothing else (`compiles_iff`).

A law that tells only how the group before and the group after are related follows from the steps
alone (`Stepwise`).
-/

namespace LinkedData

/-- The second group differs from the first one in its counters and in its named variables only. -/
def Group.Mints (g g' : Group) : Prop :=
  ∃ counter counters names,
    g' = { g with nodeCounter := counter, filterCounters := counters, tupleVariables := names }

theorem Group.Mints.refl (g : Group) : g.Mints g :=
  ⟨_, _, _, rfl⟩

/-- The tokens that a triple begins and ends with. -/
def Triple.ends (t : Triple) : List String :=
  [t.subject, t.object]

theorem Triple.mem_ends {t : Triple} {token : String} :
    token ∈ t.ends ↔ token = t.subject ∨ token = t.object := by
  simp [ends]

theorem Value.list_or_not (v : Value) :
    (∃ items, v = .list items) ∨ ∀ items, v ≠ .list items := by
  cases v with
  | list items => exact .inl ⟨items, rfl⟩
  | _ => exact .inr nofun

namespace Pattern

open Compiling

/-! ## What only makes variables -/

theorem mints_wildcardToken {name? : Option String} {g g' : Group} {token : String}
    (h : Yields (wildcardToken name?) g token g') : g.Mints g' := by
  cases makes_of_wildcardToken h with
  | anonymous => exact ⟨_, _, _, rfl⟩
  | named _ => exact ⟨_, _, _, rfl⟩

theorem mints_compileFilter {check : RegexCheck} {codec : Codec} {entries : Node} {node : Nat}
    {g g' : Group} {filter : BoundFilter}
    (h : Yields (compileFilter check codec entries node) g filter g') :
    g.Mints g' := by
  obtain ⟨f, body, -, -, -, rfl⟩ := compileFilter_spec h
  exact ⟨_, _, _, rfl⟩

theorem mints_direction {kind : PatternKey} {x : Compiling Direction} {d : Direction}
    {g g' : Group} (hx : direction? kind = some x) (h : Yields x g d g') : g.Mints g' := by
  cases turns_of_direction hx h with
  | inverse _ | property => exact .refl _
  | wildcard made => exact mints_wildcardToken made

/-! ## Parts and their outcomes -/

namespace Task

/-- What compiling a part gives. -/
abbrev Outcome : Task → Type
  | .node _ _ => CompiledNode
  | .object _ _ _ => String × List BoundFilter
  | .objects _ _ _ _ | .property _ _ _ _ | .entries _ _ _ => Edges
  | .branch _ _ | .branches _ _ | .options _ _ => Unit

/-- Compile a part. -/
def perform (check : RegexCheck) (codec : Codec) : (task : Task) → Compiling task.Outcome
  | .node es inverse => compileNode check codec es inverse
  | .object number inverse v => compileObject check codec number inverse v
  | .objects number subject direction items =>
    compileObjects check codec number subject direction items
  | .property number subject direction v => compileProperty check codec number subject direction v
  | .branch subject v => compileBranch check codec subject v
  | .branches subject vs => compileBranches check codec subject vs
  | .options subject v => compileOptional check codec subject v
  | .entries number subject es => compileEntries check codec number subject es

/-- A bound on the parts that are still to come. What a property or an optional key holds is
handed on as it is, and so are the entries of a node. -/
noncomputable def weight : Task → Nat
  | .node es _ => 2 * sizeOf es + 1
  | .object _ _ v => 2 * sizeOf v
  | .objects _ _ _ items => 2 * sizeOf items
  | .property _ _ _ v => 2 * sizeOf v + 1
  | .branch _ v => 2 * sizeOf v
  | .branches _ vs => 2 * sizeOf vs
  | .options _ v => 2 * sizeOf v + 1
  | .entries _ _ es => 2 * sizeOf es

end Task

/-- Compiling the part leads from the first group to the second one, with the outcome. -/
inductive Compiles (check : RegexCheck) (codec : Codec) : (task : Task) → Group → task.Outcome →
    Group → Prop where
  /-- a node is opened, its entries are compiled, and it is closed -/
  | node {entries : Node} {inverse : Bool} {node : Nat} {vars : NodeVariables} {edges : Edges}
      {g g₁ g₂ g₃ : Group}
      (opened : Yields (openNode codec entries inverse) g (node, vars) g₁)
      (inner : Compiles check codec (.entries node vars.subject entries) g₁ edges g₂)
      (closed : Yields (closeNode vars edges) g₂ () g₃) :
      Compiles check codec (.node entries inverse) g ⟨node, vars.subject⟩ g₃
  /-- an edge leads to another node -/
  | nested {node : Nat} {inverse : Bool} {entries : Node} {compiled : CompiledNode}
      {g g' : Group} (hfilter : Filter.isFilter entries = false)
      (inner : Compiles check codec (.node entries inverse) g compiled g') :
      Compiles check codec (.object node inverse (.node entries)) g (compiled.subject, []) g'
  /-- an edge leads to a filtered variable -/
  | filter {node : Nat} {inverse : Bool} {entries : Node} {filter : BoundFilter} {g g' : Group}
      (hfilter : Filter.isFilter entries = true)
      (run : Yields (compileFilter check codec entries node) g filter g') :
      Compiles check codec (.object node inverse (.node entries)) g (filter.token, [filter]) g'
  /-- an edge leads to a wildcard -/
  | wildcard {node : Nat} {inverse : Bool} {name? : Option String} {token : String}
      {g g' : Group} (run : Yields (wildcardToken name?) g token g') :
      Compiles check codec (.object node inverse (.wildcard name?)) g (token, []) g'
  /-- an edge leads to a scalar -/
  | scalar {node : Nat} {inverse : Bool} {v : Value} {token : String} {g : Group}
      (hscalar : v.isScalar = true) (hliteral : codec.encodeLiteral v = .ok token) :
      Compiles check codec (.object node inverse v) g (token, []) g
  /-- a list is at its end -/
  | noItems {node : Nat} {subject : String} {d : Direction} {g : Group} :
      Compiles check codec (.objects node subject d []) g .none g
  /-- first an element of a list, then the others -/
  | items {node : Nat} {subject object : String} {d : Direction} {item : Value}
      {rest : List Value} {filters : List BoundFilter} {edges : Edges} {g g' g'' : Group}
      (first : Compiles check codec (.object node d.inverse item) g (object, filters) g')
      (others : Compiles check codec (.objects node subject d rest) g' edges g'') :
      Compiles check codec (.objects node subject d (item :: rest)) g
        ((Edges.mk [d.edge subject object] filters).append edges) g''
  /-- a property holds a list -/
  | list {node : Nat} {subject : String} {d : Direction} {items : List Value} {edges : Edges}
      {g g' : Group} (inner : Compiles check codec (.objects node subject d items) g edges g') :
      Compiles check codec (.property node subject d (.list items)) g edges g'
  /-- a property holds a single value -/
  | single {node : Nat} {subject object : String} {d : Direction} {v : Value}
      {filters : List BoundFilter} {g g' : Group} (hlist : ∀ items, v ≠ .list items)
      (inner : Compiles check codec (.object node d.inverse v) g (object, filters) g') :
      Compiles check codec (.property node subject d v) g ⟨[d.edge subject object], filters⟩ g'
  /-- an optional branch is a node of its own, and is then demoted -/
  | branch {subject : String} {entries : Node} {compiled : CompiledNode} {g g' : Group}
      (hfilter : Filter.isFilter entries = false)
      (inner : Compiles check codec (.node entries false) g.enterOptional compiled g') :
      Compiles check codec (.branch subject (.node entries)) g ()
        (g'.demote compiled.node subject).exitOptional
  /-- a list of optional branches is at its end -/
  | noBranches {subject : String} {g : Group} : Compiles check codec (.branches subject []) g () g
  /-- first an optional branch, then the others -/
  | branches {subject : String} {v : Value} {rest : List Value} {g g' g'' : Group}
      (first : Compiles check codec (.branch subject v) g () g')
      (others : Compiles check codec (.branches subject rest) g' () g'') :
      Compiles check codec (.branches subject (v :: rest)) g () g''
  /-- an optional key holds a list -/
  | several {subject : String} {vs : List Value} {g g' : Group}
      (inner : Compiles check codec (.branches subject vs) g () g') :
      Compiles check codec (.options subject (.list vs)) g () g'
  /-- an optional key holds a single branch -/
  | one {subject : String} {v : Value} {g g' : Group} (hlist : ∀ vs, v ≠ .list vs)
      (inner : Compiles check codec (.branch subject v) g () g') :
      Compiles check codec (.options subject v) g () g'
  /-- a node has no further entry -/
  | noEntries {node : Nat} {subject : String} {g : Group} :
      Compiles check codec (.entries node subject []) g .none g
  /-- the identifier of a node, which was looked at when the node was opened -/
  | identifier {node : Nat} {subject key : String} {v : Value} {rest : Node} {edges : Edges}
      {g g' : Group} (hkey : PatternKey.resolve key = .ok .id)
      (others : Compiles check codec (.entries node subject rest) g edges g') :
      Compiles check codec (.entries node subject ((key, v) :: rest)) g edges g'
  /-- the optional branches of a node -/
  | optional {node : Nat} {subject key : String} {v : Value} {rest : Node} {edges : Edges}
      {g g' g'' : Group} (hkey : PatternKey.resolve key = .ok .optional)
      (first : Compiles check codec (.options subject v) g () g')
      (others : Compiles check codec (.entries node subject rest) g' edges g'') :
      Compiles check codec (.entries node subject ((key, v) :: rest)) g edges g''
  /-- a property of a node, in either direction -/
  | edge {node : Nat} {subject key : String} {v : Value} {rest : Node} {kind : PatternKey}
      {x : Compiling Direction} {d : Direction} {here edges : Edges} {g g₁ g₂ g₃ : Group}
      (hkey : PatternKey.resolve key = .ok kind) (hx : direction? kind = some x)
      (turned : Yields x g d g₁)
      (first : Compiles check codec (.property node subject d v) g₁ here g₂)
      (others : Compiles check codec (.entries node subject rest) g₂ edges g₃) :
      Compiles check codec (.entries node subject ((key, v) :: rest)) g (here.append edges) g₃

/-! ## The relation and the functions -/

theorem compileProperty_single (check : RegexCheck) (codec : Codec) (node : Nat) (subject : String)
    (direction : Direction) {v : Value} (hlist : ∀ items, v ≠ .list items) :
    compileProperty check codec node subject direction v = (do
      let (object, filters) ← compileObject check codec node direction.inverse v
      pure ⟨[direction.edge subject object], filters⟩) := by
  cases v with
  | list items => exact absurd rfl (hlist items)
  | _ => rfl

theorem compileOptional_single (check : RegexCheck) (codec : Codec) (subject : String) {v : Value}
    (hlist : ∀ vs, v ≠ .list vs) :
    compileOptional check codec subject v = compileBranch check codec subject v := by
  cases v with
  | list vs => exact absurd rfl (hlist vs)
  | _ => rfl

section

variable {check : RegexCheck} {codec : Codec} {node : Nat} {subject key : String} {v : Value}
  {g g' : Group}

theorem yields_compileEntry_id (hkey : PatternKey.resolve key = .ok .id) :
    Yields (compileEntry check codec node subject key v) g .none g :=
  Yields.bind_iff.2 ⟨.id, g, Yields.compiling_lift_iff.2 ⟨hkey, rfl⟩, Yields.pure_iff.2 ⟨rfl, rfl⟩⟩

theorem yields_compileEntry_optional (hkey : PatternKey.resolve key = .ok .optional)
    (h : Yields (compileOptional check codec subject v) g () g') :
    Yields (compileEntry check codec node subject key v) g .none g' := by
  refine Yields.bind_iff.2 ⟨.optional, g, Yields.compiling_lift_iff.2 ⟨hkey, rfl⟩, ?_⟩
  exact Yields.bind_iff.2 ⟨(), g', h, Yields.pure_iff.2 ⟨rfl, rfl⟩⟩

theorem yields_compileEntry_edge {kind : PatternKey} {x : Compiling Direction} {d : Direction}
    {edges : Edges} {g₁ : Group} (hkey : PatternKey.resolve key = .ok kind)
    (hx : direction? kind = some x) (turned : Yields x g d g₁)
    (h : Yields (compileProperty check codec node subject d v) g₁ edges g') :
    Yields (compileEntry check codec node subject key v) g edges g' := by
  refine Yields.bind_iff.2 ⟨kind, g, Yields.compiling_lift_iff.2 ⟨hkey, rfl⟩, ?_⟩
  rw [compileKey_direction check codec node subject key v hx]
  exact Yields.bind_iff.2 ⟨d, g₁, turned, h⟩

theorem yields_compileEntries_cons {rest : Node} {here edges : Edges} {g₁ : Group}
    (first : Yields (compileEntry check codec node subject key v) g here g₁)
    (others : Yields (compileEntries check codec node subject rest) g₁ edges g') :
    Yields (compileEntries check codec node subject ((key, v) :: rest)) g (here.append edges)
      g' := by
  rw [compileEntries_cons]
  refine Yields.bind_iff.2 ⟨here, g₁, first, ?_⟩
  exact Yields.bind_iff.2 ⟨edges, g', others, Yields.pure_iff.2 ⟨rfl, rfl⟩⟩

end

/-- What the relation tells is a run. -/
theorem Compiles.yields {check : RegexCheck} {codec : Codec} {task : Task} {g g' : Group}
    {r : task.Outcome}
    (h : Compiles check codec task g r g') : Yields (task.perform check codec) g r g' := by
  induction h with
  | node opened inner closed ih =>
    refine Yields.bind_iff.2 ⟨_, _, opened, ?_⟩
    refine Yields.bind_iff.2 ⟨_, _, ih, ?_⟩
    exact Yields.bind_iff.2 ⟨_, _, closed, Yields.pure_iff.2 ⟨rfl, rfl⟩⟩
  | nested hfilter inner ih =>
    rw [Task.perform, compileObject_node _ _ _ _ hfilter]
    exact Yields.bind_iff.2 ⟨_, _, ih, Yields.pure_iff.2 ⟨rfl, rfl⟩⟩
  | filter hfilter run =>
    rw [Task.perform, compileObject_filter _ _ _ _ hfilter]
    exact Yields.bind_iff.2 ⟨_, _, run, Yields.pure_iff.2 ⟨rfl, rfl⟩⟩
  | wildcard run =>
    rw [Task.perform, compileObject]
    exact Yields.bind_iff.2 ⟨_, _, run, Yields.pure_iff.2 ⟨rfl, rfl⟩⟩
  | scalar hscalar hliteral =>
    rw [Task.perform, compileObject_scalar _ _ _ _ hscalar]
    exact Yields.bind_iff.2 ⟨_, _, Yields.compiling_lift_iff.2 ⟨hliteral, rfl⟩,
      Yields.pure_iff.2 ⟨rfl, rfl⟩⟩
  | noItems | noBranches | noEntries => exact Yields.pure_iff.2 ⟨rfl, rfl⟩
  | items first others ih₁ ih₂ =>
    rw [Task.perform, compileObjects]
    refine Yields.bind_iff.2 ⟨_, _, ih₁, ?_⟩
    exact Yields.bind_iff.2 ⟨_, _, ih₂, Yields.pure_iff.2 ⟨rfl, rfl⟩⟩
  | list inner ih | several inner ih => exact ih
  | single hlist inner ih =>
    rw [Task.perform, compileProperty_single _ _ _ _ _ hlist]
    exact Yields.bind_iff.2 ⟨_, _, ih, Yields.pure_iff.2 ⟨rfl, rfl⟩⟩
  | branch hfilter inner ih =>
    rw [Task.perform, compileBranch_node _ _ _ hfilter]
    refine Yields.bind_iff.2 ⟨(), _, Yields.change_iff.2 rfl, ?_⟩
    refine Yields.bind_iff.2 ⟨_, _, ih, ?_⟩
    exact Yields.bind_iff.2 ⟨(), _, Yields.change_iff.2 rfl, Yields.change_iff.2 rfl⟩
  | branches first others ih₁ ih₂ =>
    rw [Task.perform, compileBranches]
    exact Yields.bind_iff.2 ⟨_, _, ih₁, ih₂⟩
  | one hlist inner ih =>
    rw [Task.perform, compileOptional_single _ _ _ hlist]
    exact ih
  | identifier hkey others ih => exact yields_compileEntries_cons (yields_compileEntry_id hkey) ih
  | optional hkey first others ih₁ ih₂ =>
    exact yields_compileEntries_cons (yields_compileEntry_optional hkey ih₁) ih₂
  | edge hkey hx turned first others ih₁ ih₂ =>
    exact yields_compileEntries_cons (yields_compileEntry_edge hkey hx turned ih₁) ih₂

/-- Every run is told by the relation. -/
theorem compiles_of_yields {check : RegexCheck} {codec : Codec} : ∀ (task : Task) {g g' : Group}
    {r : task.Outcome},
    Yields (task.perform check codec) g r g' → Compiles check codec task g r g'
  | .node es inverse, g, g', r, h => by
    obtain ⟨⟨number, vars⟩, g₁, hopen, h⟩ := Yields.bind_iff.1 h
    obtain ⟨edges, g₂, hedges, h⟩ := Yields.bind_iff.1 h
    obtain ⟨u, g₃, hclose, h⟩ := Yields.bind_iff.1 h
    obtain ⟨rfl, rfl⟩ := Yields.pure_iff.1 h
    exact .node hopen (compiles_of_yields (.entries number vars.subject es) hedges) hclose
  | .object number inverse v, g, g', r, h => by
    rw [Task.perform] at h
    rcases v.node_or_list_or_wildcard_or_scalar with
      ⟨es, rfl⟩ | ⟨items, rfl⟩ | ⟨name?, rfl⟩ | hscalar
    · rcases hfilter : Filter.isFilter es with _ | _
      · rw [compileObject_node check codec number inverse hfilter] at h
        obtain ⟨compiled, g₁, hcompiled, h⟩ := Yields.bind_iff.1 h
        obtain ⟨rfl, rfl⟩ := Yields.pure_iff.1 h
        exact .nested hfilter (compiles_of_yields (.node es inverse) hcompiled)
      · rw [compileObject_filter check codec number inverse hfilter] at h
        obtain ⟨filter, g₁, hrun, h⟩ := Yields.bind_iff.1 h
        obtain ⟨rfl, rfl⟩ := Yields.pure_iff.1 h
        exact .filter hfilter hrun
    · rw [compileObject] at h
      exact (Yields.throw_iff.1 h).elim
    · rw [compileObject] at h
      obtain ⟨token, g₁, htoken, h⟩ := Yields.bind_iff.1 h
      obtain ⟨rfl, rfl⟩ := Yields.pure_iff.1 h
      exact .wildcard htoken
    · rw [compileObject_scalar check codec _ _ hscalar] at h
      obtain ⟨token, g₁, hlift, hend⟩ := Yields.bind_iff.1 h
      obtain ⟨hok, rfl⟩ := Yields.compiling_lift_iff.1 hlift
      obtain ⟨rfl, rfl⟩ := Yields.pure_iff.1 hend
      exact .scalar hscalar hok
  | .objects number subject d [], g, g', r, h => by
    obtain ⟨rfl, rfl⟩ := Yields.pure_iff.1 h
    exact .noItems
  | .objects number subject d (item :: rest), g, g', r, h => by
    rw [Task.perform, compileObjects] at h
    obtain ⟨⟨object, filters⟩, g₁, hitem, h⟩ := Yields.bind_iff.1 h
    obtain ⟨others, g₂, hrest, h⟩ := Yields.bind_iff.1 h
    obtain ⟨rfl, rfl⟩ := Yields.pure_iff.1 h
    exact .items (compiles_of_yields (.object number d.inverse item) hitem)
      (compiles_of_yields (.objects number subject d rest) hrest)
  | .property number subject d v, g, g', r, h => by
    rcases v.list_or_not with ⟨items, rfl⟩ | hlist
    · exact .list (compiles_of_yields (.objects number subject d items) h)
    · rw [Task.perform, compileProperty_single check codec number subject d hlist] at h
      obtain ⟨⟨object, filters⟩, g₁, hitem, h⟩ := Yields.bind_iff.1 h
      obtain ⟨rfl, rfl⟩ := Yields.pure_iff.1 h
      exact .single hlist (compiles_of_yields (.object number d.inverse v) hitem)
  | .branch subject v, g, g', r, h => by
    rw [Task.perform] at h
    rcases v.node_or_not with ⟨es, rfl⟩ | hnode
    · rcases hfilter : Filter.isFilter es with _ | _
      · rw [compileBranch_node check codec subject hfilter] at h
        obtain ⟨u₀, g₀, hstart, h⟩ := Yields.bind_iff.1 h
        obtain ⟨compiled, g₁, hcompiled, h⟩ := Yields.bind_iff.1 h
        obtain ⟨u₂, g₂, hdemote, hexit⟩ := Yields.bind_iff.1 h
        obtain rfl := Yields.change_iff.1 hstart
        obtain rfl := Yields.change_iff.1 hdemote
        obtain rfl := Yields.change_iff.1 hexit
        exact .branch hfilter (compiles_of_yields (.node es false) hcompiled)
      · rw [compileBranch_filter check codec subject hfilter] at h
        exact (Yields.throw_iff.1 h).elim
    · rw [compileBranch_other check codec subject hnode] at h
      exact (Yields.throw_iff.1 h).elim
  | .branches subject [], g, g', r, h => by
    obtain ⟨-, rfl⟩ := Yields.pure_iff.1 h
    exact .noBranches
  | .branches subject (v :: rest), g, g', r, h => by
    rw [Task.perform, compileBranches] at h
    obtain ⟨u, g₁, hbranch, hrest⟩ := Yields.bind_iff.1 h
    exact .branches (compiles_of_yields (.branch subject v) hbranch)
      (compiles_of_yields (.branches subject rest) hrest)
  | .options subject v, g, g', r, h => by
    rcases v.list_or_not with ⟨vs, rfl⟩ | hlist
    · exact .several (compiles_of_yields (.branches subject vs) h)
    · rw [Task.perform, compileOptional_single check codec subject hlist] at h
      exact .one hlist (compiles_of_yields (.branch subject v) h)
  | .entries number subject [], g, g', r, h => by
    obtain ⟨rfl, rfl⟩ := Yields.pure_iff.1 h
    exact .noEntries
  | .entries number subject ((key, v) :: rest), g, g', r, h => by
    rw [Task.perform, compileEntries_cons] at h
    obtain ⟨here, g₁, hentry, h⟩ := Yields.bind_iff.1 h
    obtain ⟨edges, g₂, hrest, h⟩ := Yields.bind_iff.1 h
    obtain ⟨rfl, rfl⟩ := Yields.pure_iff.1 h
    obtain ⟨kind, g₀, hkind, hkey⟩ := Yields.bind_iff.1 hentry
    obtain ⟨hresolve, rfl⟩ := Yields.compiling_lift_iff.1 hkind
    have hrest := compiles_of_yields (.entries number subject rest) hrest
    rcases hdirection : direction? kind with _ | x
    · cases kind with
      | inverse _ | wildcard _ | property _ => cases hdirection
      | operator _ => exact (Yields.throw_iff.1 hkey).elim
      | id =>
        obtain ⟨rfl, rfl⟩ := Yields.pure_iff.1 hkey
        exact .identifier hresolve hrest
      | optional =>
        obtain ⟨u, g₂, hoptional, hend⟩ := Yields.bind_iff.1 hkey
        obtain ⟨rfl, rfl⟩ := Yields.pure_iff.1 hend
        exact .optional hresolve (compiles_of_yields (.options subject v) hoptional) hrest
    · rw [compileKey_direction check codec number subject key v hdirection] at hkey
      obtain ⟨d, g₂, hx, hproperty⟩ := Yields.bind_iff.1 hkey
      exact .edge hresolve hdirection hx
        (compiles_of_yields (.property number subject d v) hproperty) hrest
termination_by task => task.weight
decreasing_by
  all_goals
    subst_vars
    simp only [Task.weight, List.cons.sizeOf_spec, Prod.mk.sizeOf_spec, Value.node.sizeOf_spec,
      Value.list.sizeOf_spec]
    omega

/-- The relation holds of the runs of compiling, and of nothing else. -/
theorem compiles_iff {check : RegexCheck} {codec : Codec} {task : Task} {g g' : Group}
    {r : task.Outcome} :
    Compiles check codec task g r g' ↔ Yields (task.perform check codec) g r g' :=
  ⟨Compiles.yields, compiles_of_yields task⟩

/-- A pattern is compiled as a node, and is no filter. -/
theorem compiles_of_compileInto {check : RegexCheck} {codec : Codec} {pattern : Node}
    {compiled : CompiledNode} {g g' : Group}
    (h : Yields (compileInto check codec pattern) g compiled g') :
    Filter.isFilter pattern = false ∧ Compiles check codec (.node pattern false) g compiled g' := by
  rcases hfilter : Filter.isFilter pattern with _ | _
  · rw [compileInto_eq check codec hfilter] at h
    exact ⟨rfl, compiles_of_yields (.node pattern false) h⟩
  · rw [compileInto, hfilter] at h
    cases h

theorem yields_of_compile {check : RegexCheck} {codec : Codec} {pattern : Node} {g : Group}
    (h : compile check codec pattern = .ok g) :
    ∃ compiled, Yields (compileInto check codec pattern) .empty compiled g := by
  rcases hrun : (compileInto check codec pattern).run .empty with ⟨e | compiled, g'⟩
  · rw [compile, hrun] at h
    cases h
  · rw [compile, hrun] at h
    obtain rfl := Except.ok.inj h
    exact ⟨compiled, hrun⟩

/-! ## Laws of every step -/

/-- A relation between groups that every step of compiling keeps. -/
structure Stepwise (R : Group → Group → Prop) : Prop where
  /-- one step after the other -/
  trans : ∀ {g g' g'' : Group}, R g g' → R g' g'' → R g g''
  /-- variables are made -/
  mints : ∀ {g g' : Group}, g.Mints g' → R g g'
  /-- a node begins -/
  opened : ∀ (g : Group) (entries : Node) (inverse : Bool), R g (g.opened entries inverse)
  /-- a node ends -/
  append : ∀ (g : Group) (clauses : List Clause), R g (g.append clauses)
  /-- a node is compiled as an optional branch -/
  branch : ∀ {g g' : Group} (number : Nat) (parent : String), R g.enterOptional g' →
    R g (g'.demote number parent).exitOptional

/-- What every step keeps, every part keeps. -/
theorem Compiles.stepwise {check : RegexCheck} {codec : Codec} {task : Task} {g g' : Group}
    {r : task.Outcome} (h : Compiles check codec task g r g') {R : Group → Group → Prop}
    (hR : Stepwise R) :
    R g g' := by
  induction h with
  | node opened inner closed ih =>
    obtain ⟨-, -, rfl⟩ := opened_of_yields opened
    obtain rfl := Yields.change_iff.1 closed
    exact hR.trans (hR.trans (hR.opened _ _ _) ih) (hR.append _ _)
  | filter hfilter run => exact hR.mints (mints_compileFilter run)
  | wildcard run => exact hR.mints (mints_wildcardToken run)
  | scalar _ _ | noItems | noBranches | noEntries => exact hR.mints (.refl _)
  | nested _ _ ih | list _ ih | single _ _ ih | several _ ih | one _ _ ih | identifier _ _ ih =>
    exact ih
  | items _ _ ih₁ ih₂ | branches _ _ ih₁ ih₂ | optional _ _ _ ih₁ ih₂ => exact hR.trans ih₁ ih₂
  | branch hfilter inner ih => exact hR.branch _ _ ih
  | edge hkey hx turned first others ih₁ ih₂ =>
    exact hR.trans (hR.mints (mints_direction hx turned)) (hR.trans ih₁ ih₂)

/-! ## The clauses of a node -/

/-- The edges that come of a part begin or end with the subject of the node that they belong
to. -/
def Task.About : (task : Task) → task.Outcome → Prop
  | .objects _ subject _ _, edges | .property _ subject _ _, edges | .entries _ subject _, edges =>
    ∀ t ∈ edges.triples, subject ∈ t.ends
  | .node _ _, _ | .object _ _ _, _ | .branch _ _, _ | .branches _ _, _ | .options _ _, _ => True

theorem Direction.ends_edge (d : Direction) (subject object : String) :
    subject ∈ (d.edge subject object).ends := by
  rw [Direction.edge]
  split <;> simp [Triple.ends]

theorem Edges.forall_append {p : Triple → Prop} {a b : Edges} (ha : ∀ t ∈ a.triples, p t)
    (hb : ∀ t ∈ b.triples, p t) : ∀ t ∈ (a.append b).triples, p t :=
  List.forall_mem_append.2 ⟨ha, hb⟩

theorem Compiles.about {check : RegexCheck} {codec : Codec} {task : Task} {g g' : Group}
    {r : task.Outcome} (h : Compiles check codec task g r g') : task.About r := by
  induction h with
  | node _ _ _ _ | nested _ _ _ | filter _ _ | wildcard _ | scalar _ _ | branch _ _ _ | noBranches
    | branches _ _ _ _ | several _ _ | one _ _ _ => trivial
  | noItems | noEntries => exact nofun
  | @items node subject object d item rest filters edges g g' g'' first others ih₁ ih₂ =>
    exact Edges.forall_append (List.forall_mem_singleton.2 (d.ends_edge subject object)) ih₂
  | list inner ih => exact ih
  | @single node subject object d v filters g g' hlist inner ih =>
    exact List.forall_mem_singleton.2 (d.ends_edge subject object)
  | identifier hkey others ih => exact ih
  | optional hkey first others ih₁ ih₂ => exact ih₂
  | edge hkey hx turned first others ih₁ ih₂ => exact Edges.forall_append ih₁ ih₂

/-- A node ends with clauses of its own. One of them is a triple that begins or ends with its
subject: an edge of the node if it has any, and else the arbitrary one. -/
theorem closes_about {vars : NodeVariables} {edges : Edges} {g g' : Group} {u : Unit}
    (habout : ∀ t ∈ edges.triples, vars.subject ∈ t.ends)
    (h : Yields (closeNode vars edges) g u g') :
    ∃ clauses, g' = g.append clauses ∧ ∃ t, .triple t ∈ clauses ∧ vars.subject ∈ t.ends := by
  refine ⟨_, Yields.change_iff.1 h, ?_⟩
  rcases ht : edges.triples with _ | ⟨t, ts⟩
  · exact ⟨⟨vars.subject, vars.predicate, vars.object⟩, List.mem_cons_self, List.mem_cons_self⟩
  · exact ⟨t, List.mem_cons_self, habout t (ht ▸ List.mem_cons_self)⟩

end Pattern

end LinkedData
