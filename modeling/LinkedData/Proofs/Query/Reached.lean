import LinkedData.Proofs.Query.Advance

/-!
# What compiling reaches

While a pattern is compiled, its parts are compiled one after the other, each in the group
that the earlier parts have left. `Starts` is the relation between a part and the parts that
it hands on, and `Reached` says that compiling a pattern comes to a part in a group. So a
statement about every optional branch of every pattern, wherever it stands, is one about what
is reached; and in whatever is reached, subject variables are fresh (`Reached.clear`).
-/

namespace LinkedData

namespace Pattern

/-- A part of compiling, with what it is given. -/
inductive Task where
  /-- a node -/
  | node (entries : Node) (inverse : Bool)
  /-- a value behind an edge of a node -/
  | object (node : Nat) (inverse : Bool) (v : Value)
  /-- the elements of a list behind an edge -/
  | objects (node : Nat) (subject : String) (direction : Direction) (items : List Value)
  /-- what one property holds -/
  | property (node : Nat) (subject : String) (direction : Direction) (v : Value)
  /-- an optional branch -/
  | branch (subject : String) (v : Value)
  /-- several optional branches -/
  | branches (subject : String) (vs : List Value)
  /-- what an optional key holds -/
  | options (subject : String) (v : Value)
  /-- the entries of a node -/
  | entries (node : Nat) (subject : String) (entries : Node)

/-- The first part, begun in the first group, comes to the second part in the second group. -/
inductive Starts (check : RegexCheck) (codec : Codec) : Task → Group → Task → Group → Prop where
  | entries {entries : Node} {inverse : Bool} {g g' : Group} {node : Nat} {vars : NodeVariables}
      (h : Yields (openNode codec entries inverse) g (node, vars) g') :
      Starts check codec (.node entries inverse) g (.entries node vars.subject entries) g'
  | node {node : Nat} {inverse : Bool} {entries : Node} {g : Group}
      (h : Filter.isFilter entries = false) :
      Starts check codec (.object node inverse (.node entries)) g (.node entries inverse) g
  | item {node : Nat} {subject : String} {d : Direction} {item : Value} {rest : List Value}
      {g : Group} :
      Starts check codec (.objects node subject d (item :: rest)) g (.object node d.inverse item) g
  | items {node : Nat} {subject : String} {d : Direction} {item : Value} {rest : List Value}
      {g g' : Group} {r : String × List BoundFilter}
      (h : Yields (compileObject check codec node d.inverse item) g r g') :
      Starts check codec (.objects node subject d (item :: rest)) g
        (.objects node subject d rest) g'
  | list {node : Nat} {subject : String} {d : Direction} {items : List Value} {g : Group} :
      Starts check codec (.property node subject d (.list items)) g
        (.objects node subject d items) g
  | single {node : Nat} {subject : String} {d : Direction} {v : Value} {g : Group}
      (h : ∀ items, v ≠ .list items) :
      Starts check codec (.property node subject d v) g (.object node d.inverse v) g
  | alternative {subject : String} {entries : Node} {g : Group}
      (h : Filter.isFilter entries = false) :
      Starts check codec (.branch subject (.node entries)) g (.node entries false) g.enterOptional
  | branch {subject : String} {v : Value} {rest : List Value} {g : Group} :
      Starts check codec (.branches subject (v :: rest)) g (.branch subject v) g
  | branches {subject : String} {v : Value} {rest : List Value} {g g' : Group} {u : Unit}
      (h : Yields (compileBranch check codec subject v) g u g') :
      Starts check codec (.branches subject (v :: rest)) g (.branches subject rest) g'
  | several {subject : String} {vs : List Value} {g : Group} :
      Starts check codec (.options subject (.list vs)) g (.branches subject vs) g
  | one {subject : String} {v : Value} {g : Group} (h : ∀ vs, v ≠ .list vs) :
      Starts check codec (.options subject v) g (.branch subject v) g
  | options {node : Nat} {subject key : String} {v : Value} {rest : Node} {g : Group}
      (h : PatternKey.resolve key = .ok .optional) :
      Starts check codec (.entries node subject ((key, v) :: rest)) g (.options subject v) g
  | property {node : Nat} {subject key : String} {v : Value} {rest : Node} {g g' : Group}
      {kind : PatternKey} {x : Compiling Direction} {d : Direction}
      (hkind : PatternKey.resolve key = .ok kind) (hx : direction? kind = some x)
      (h : Yields x g d g') :
      Starts check codec (.entries node subject ((key, v) :: rest)) g
        (.property node subject d v) g'
  | rest {node : Nat} {subject key : String} {v : Value} {rest : Node} {g g' : Group}
      {edges : Edges} (h : Yields (compileEntry check codec node subject key v) g edges g') :
      Starts check codec (.entries node subject ((key, v) :: rest)) g
        (.entries node subject rest) g'

/-- Compiling the pattern comes to a part in a group. -/
inductive Reached (check : RegexCheck) (codec : Codec) (pattern : Node) : Task → Group → Prop where
  | root (h : Filter.isFilter pattern = false) :
      Reached check codec pattern (.node pattern false) .empty
  | step {task task' : Task} {g g' : Group} (h : Reached check codec pattern task g)
      (hs : Starts check codec task g task' g') : Reached check codec pattern task' g'

/-! ## Fresh variables in whatever is reached -/

/-- The wildcards of a part are unambiguous, and the tokens it is given are settled. -/
def Task.Clear (bound : Nat) : Task → Prop
  | .node es _ => Unambiguous (Value.wildcardNamesEntries es)
  | .object _ _ v => Unambiguous v.wildcardNames
  | .objects _ subject d items =>
    Unambiguous (Value.wildcardNamesItems items) ∧ Settled bound subject ∧ NoSubject d.predicate
  | .property _ subject d v =>
    Unambiguous v.wildcardNames ∧ Settled bound subject ∧ NoSubject d.predicate
  | .branch subject v => Unambiguous v.wildcardNames ∧ Settled bound subject
  | .branches subject vs =>
    Unambiguous (Value.wildcardNamesItems vs) ∧ Settled bound subject
  | .options subject v => Unambiguous v.wildcardNames ∧ Settled bound subject
  | .entries _ subject es =>
    Unambiguous (Value.wildcardNamesEntries es) ∧ Settled bound subject

theorem advances_compileEntry {check : RegexCheck} {codec : Codec} {node : Nat}
    {subject key : String} {v : Value} {g g' : Group} {edges : Edges}
    (hnames : Unambiguous (keyNames key ++ v.wildcardNames))
    (hs : Settled g.nodeCounter subject)
    (h : Yields (compileEntry check codec node subject key v) g edges g') : g.Advances g' := by
  have hrun :
      Yields (compileEntries check codec node subject [(key, v)]) g (edges.append .none) g' := by
    rw [compileEntries_cons]
    refine Yields.bind_iff.2 ⟨edges, g', h, ?_⟩
    exact Yields.bind_iff.2 ⟨.none, g', Yields.pure_iff.2 ⟨rfl, rfl⟩, Yields.pure_iff.2 ⟨rfl, rfl⟩⟩
  refine (advances_compileEntries [(key, v)] ?_ hs hrun).1
  rw [Value.wildcardNamesEntries, Value.wildcardNamesEntries, List.append_nil]
  exact hnames

/-- One step: a part hands on unambiguous wildcards and settled tokens. -/
theorem Starts.clear {check : RegexCheck} {codec : Codec} {task task' : Task} {g g' : Group}
    (h : Starts check codec task g task' g') (hg : g.Settled) (ht : task.Clear g.nodeCounter) :
    g'.Settled ∧ task'.Clear g'.nodeCounter := by
  cases h with
  | entries h =>
    have hadv := advances_openNode ht h
    exact ⟨hadv.settled hg, ht, ((opened_of_openNode h).settled ht).1⟩
  | node _ => exact ⟨hg, by rwa [Task.Clear, Value.wildcardNames] at ht⟩
  | item =>
    rw [Task.Clear, Value.wildcardNamesItems] at ht
    exact ⟨hg, ht.1.left⟩
  | items h =>
    rw [Task.Clear, Value.wildcardNamesItems] at ht
    have hadv := (advances_compileObject _ ht.1.left h).1
    exact ⟨hadv.settled hg, ht.1.right, ht.2.1.mono hadv.counter, ht.2.2⟩
  | list =>
    rw [Task.Clear, Value.wildcardNames] at ht
    exact ⟨hg, ht⟩
  | single _ => exact ⟨hg, ht.1⟩
  | alternative _ =>
    rw [Task.Clear, Value.wildcardNames] at ht
    exact ⟨⟨hg.buffer, hg.projection, hg.nodes⟩, ht.1⟩
  | branch =>
    rw [Task.Clear, Value.wildcardNamesItems] at ht
    exact ⟨hg, ht.1.left, ht.2⟩
  | branches h =>
    rw [Task.Clear, Value.wildcardNamesItems] at ht
    have hadv := advances_compileBranch _ ht.1.left ht.2 h
    exact ⟨hadv.settled hg, ht.1.right, ht.2.mono hadv.counter⟩
  | several =>
    rw [Task.Clear, Value.wildcardNames] at ht
    exact ⟨hg, ht⟩
  | one _ => exact ⟨hg, ht⟩
  | options _ =>
    rw [Task.Clear, Value.wildcardNamesEntries] at ht
    exact ⟨hg, ht.1.left.right, ht.2⟩
  | property hkind hx h =>
    rw [Task.Clear, Value.wildcardNamesEntries] at ht
    obtain ⟨hadv, hp⟩ := advances_direction ht.1.left.left hkind hx h
    exact ⟨hadv.settled hg, ht.1.left.right, ht.2.mono hadv.counter, hp⟩
  | rest h =>
    rw [Task.Clear, Value.wildcardNamesEntries] at ht
    have hadv := advances_compileEntry ht.1.left ht.2 h
    exact ⟨hadv.settled hg, ht.1.right, ht.2.mono hadv.counter⟩

/-- The whole run: whatever is reached has unambiguous wildcards and settled tokens, in a
settled group. -/
theorem Reached.clear {check : RegexCheck} {codec : Codec} {pattern : Node} {task : Task}
    {g : Group} (h : Reached check codec pattern task g)
    (hnames : Unambiguous (Value.wildcardNamesEntries pattern)) :
    g.Settled ∧ task.Clear g.nodeCounter := by
  induction h with
  | root _ => exact ⟨Group.settled_empty, hnames⟩
  | step _ hs ih => exact hs.clear ih.1 ih.2

end Pattern

end LinkedData
