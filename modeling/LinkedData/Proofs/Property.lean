import LinkedData.Proofs.Stateful
import LinkedData.Proofs.Value.Preorder

/-!
# One node, one property at a time

The walks over a node go through its properties. What a single property contributes is
named here (`encodeProperty`, `compileEntry`), and both walks are the obvious loops over
that (`encodeEntries_cons`, `compileEntries_cons`). Likewise a whole node is compiled in one
way wherever it stands (`compileNode`): behind an edge, in an optional branch, or alone. What
encoding makes of the key of a property and of the identifier of a node is said once, too, and so
is what the runs of encoding a node, a list and the properties of a node are made up of
(`yields_encodeNode_iff`, `yields_encodeItems_cons_iff`, `yields_encodeEntries_cons_iff`).
-/

namespace LinkedData

namespace Value

/-- Is the value neither a node nor a list nor a wildcard? -/
def isScalar : Value → Bool
  | .node _ | .list _ | .wildcard _ => false
  | _ => true

theorem node_or_list_or_wildcard_or_scalar (v : Value) :
    (∃ entries, v = .node entries) ∨ (∃ items, v = .list items) ∨
      (∃ name, v = .wildcard name) ∨ v.isScalar = true := by
  cases v with
  | node entries => exact .inl ⟨entries, rfl⟩
  | list items => exact .inr (.inl ⟨items, rfl⟩)
  | wildcard name => exact .inr (.inr (.inl ⟨name, rfl⟩))
  | _ => exact .inr (.inr (.inr rfl))

theorem node_or_not (v : Value) : (∃ entries, v = .node entries) ∨ v.node? = none := by
  cases v with
  | node entries => exact .inl ⟨entries, rfl⟩
  | _ => exact .inr rfl

end Value

/-- What encoding makes of a key. -/
theorem encodeKey_eq_ok {key predicate : String} (h : Triple.encodeKey key = .ok predicate) :
    Text.startsWith "$" key = false ∧ Text.startsWith "?" key = false ∧
      Literal.encodeTerm key = .ok predicate := by
  unfold Triple.encodeKey at h
  split at h
  · cases h
  · rename_i hd
    split at h
    · cases h
    · rename_i hq
      exact ⟨Bool.eq_false_iff.2 hd, Bool.eq_false_iff.2 hq, h⟩

namespace Triple

/-! ## Subjects -/

/-- The value of an identifier gives its node this subject. -/
inductive Identifies : Value → String → Prop where
  /-- a reference -/
  | reference (r : Reference) : Identifies (.reference r) (Literal.bracketed r.locator)
  /-- a text that names a reference -/
  | name {s : String} {r : Reference} : Reference.normalize? s = some r →
      Identifies (.string s) (Literal.bracketed r.locator)
  /-- a foreign locator -/
  | iri (locator : String) : Identifies (.iri locator) (Literal.bracketed locator)

/-- An identifier is minted for a node that has none, or the null. The subject of any other node
is that of its identifier. -/
theorem yields_subjectOf_iff {id : Option Value} {m m' : Mint} {subject : String} :
    Yields (subjectOf id) m subject m' ↔
      ((id = none ∨ id = some .null) ∧
        ∃ r, Yields Minting.fresh m r m' ∧ subject = Literal.bracketed r.locator) ∨
      ∃ v, id = some v ∧ Identifies v subject ∧ m' = m := by
  have hfresh : Yields (do return Literal.bracketed (← Minting.fresh).locator) m subject m' ↔
      ∃ r, Yields Minting.fresh m r m' ∧ subject = Literal.bracketed r.locator := by
    constructor
    · intro h
      obtain ⟨r, _, hr, h⟩ := Yields.bind_iff.1 h
      obtain ⟨rfl, rfl⟩ := Yields.pure_iff.1 h
      exact ⟨r, hr, rfl⟩
    · rintro ⟨r, hr, rfl⟩
      exact Yields.bind_iff.2 ⟨r, m', hr, Yields.pure_iff.2 ⟨rfl, rfl⟩⟩
  constructor
  · intro h
    rcases id with _ | v
    · exact .inl ⟨.inl rfl, hfresh.1 h⟩
    · cases v with
      | null => exact .inl ⟨.inr rfl, hfresh.1 h⟩
      | reference r =>
        obtain ⟨rfl, rfl⟩ := Yields.pure_iff.1 h
        exact .inr ⟨_, rfl, .reference r, rfl⟩
      | string s =>
        rw [subjectOf] at h
        rcases hname : Reference.normalize? s with _ | r
        · rw [hname] at h
          exact (Yields.throw_iff.1 h).elim
        · rw [hname] at h
          obtain ⟨rfl, rfl⟩ := Yields.pure_iff.1 h
          exact .inr ⟨_, rfl, .name hname, rfl⟩
      | iri locator =>
        obtain ⟨rfl, rfl⟩ := Yields.pure_iff.1 h
        exact .inr ⟨_, rfl, .iri locator, rfl⟩
      | _ => exact (Yields.throw_iff.1 h).elim
  · rintro (⟨rfl | rfl, h⟩ | ⟨v, rfl, hv, rfl⟩)
    · exact hfresh.2 h
    · exact hfresh.2 h
    · cases hv with
      | reference r => exact Yields.pure_iff.2 ⟨rfl, rfl⟩
      | name hname =>
        rw [subjectOf, hname]
        exact Yields.pure_iff.2 ⟨rfl, rfl⟩
      | iri locator => exact Yields.pure_iff.2 ⟨rfl, rfl⟩

/-! ## Properties -/

/-- The triples below a node come before its own. -/
theorem yields_encodeNode_iff {codec : Codec} {key : String} {entries : Node} {m m' : Mint}
    {r : List Triple × String} :
    Yields (encodeObject codec key (.node entries)) m r m' ↔
      ∃ subject emitted m₁, Yields (subjectOf (identifier? entries)) m subject m₁ ∧
        Yields (encodeEntries codec subject entries) m₁ emitted m' ∧
        r = (emitted.nested ++ emitted.own, subject) := by
  rw [encodeObject, identifier?]
  constructor
  · intro h
    obtain ⟨subject, m₁, hsubject, h⟩ := Yields.bind_iff.1 h
    obtain ⟨emitted, m₂, hemitted, h⟩ := Yields.bind_iff.1 h
    obtain ⟨rfl, rfl⟩ := Yields.pure_iff.1 h
    exact ⟨subject, emitted, m₁, hsubject, hemitted, rfl⟩
  · rintro ⟨subject, emitted, m₁, hsubject, hemitted, rfl⟩
    refine Yields.bind_iff.2 ⟨subject, m₁, hsubject, ?_⟩
    exact Yields.bind_iff.2 ⟨emitted, m', hemitted, Yields.pure_iff.2 ⟨rfl, rfl⟩⟩

/-- What the first element adds comes before what the others add. -/
theorem yields_encodeItems_cons_iff {codec : Codec} {subject predicate key : String}
    {item : Value} {rest : List Value} {m m' : Mint} {emitted : Emitted} :
    Yields (encodeItems codec subject predicate key (item :: rest)) m emitted m' ↔
      ∃ before object after m₁, Yields (encodeObject codec key item) m (before, object) m₁ ∧
        Yields (encodeItems codec subject predicate key rest) m₁ after m' ∧
        emitted = ⟨before ++ after.nested, ⟨subject, predicate, object⟩ :: after.own⟩ := by
  rw [encodeItems]
  constructor
  · intro h
    obtain ⟨⟨before, object⟩, m₁, hitem, h⟩ := Yields.bind_iff.1 h
    obtain ⟨after, m₂, hrest, h⟩ := Yields.bind_iff.1 h
    obtain ⟨rfl, rfl⟩ := Yields.pure_iff.1 h
    exact ⟨before, object, after, m₁, hitem, hrest, rfl⟩
  · rintro ⟨before, object, after, m₁, hitem, hrest, rfl⟩
    refine Yields.bind_iff.2 ⟨(before, object), m₁, hitem, ?_⟩
    exact Yields.bind_iff.2 ⟨after, m', hrest, Yields.pure_iff.2 ⟨rfl, rfl⟩⟩

/-- The triples that one property adds to its node. -/
def encodeProperty (codec : Codec) (subject predicate key : String) : Value → Minting Emitted
  | .list items => encodeItems codec subject predicate key items
  | single => do
    let (before, object) ← encodeObject codec key single
    pure ⟨before, [⟨subject, predicate, object⟩]⟩

/-- A property that holds no list adds one triple. -/
theorem encodeProperty_single (codec : Codec) (subject predicate key : String) {v : Value}
    (h : ∀ items, v ≠ .list items) :
    encodeProperty codec subject predicate key v = (do
      let (before, object) ← encodeObject codec key v
      pure ⟨before, [⟨subject, predicate, object⟩]⟩) := by
  cases v with
  | list items => exact absurd rfl (h items)
  | _ => rfl

theorem encodeEntries_id (codec : Codec) (subject : String) (value : Value)
    (rest : List (String × Value)) :
    encodeEntries codec subject ((Vocabulary.idKey, value) :: rest) =
      encodeEntries codec subject rest := by
  rw [encodeEntries, if_pos rfl]

theorem encodeEntries_cons (codec : Codec) (subject : String) {key : String}
    (hkey : key ≠ Vocabulary.idKey) (value : Value) (rest : List (String × Value)) :
    encodeEntries codec subject ((key, value) :: rest) = (do
      let predicate ← Minting.lift (encodeKey key)
      let here ← encodeProperty codec subject predicate key value
      let emitted ← encodeEntries codec subject rest
      return ⟨here.nested ++ emitted.nested, here.own ++ emitted.own⟩) := by
  rw [encodeEntries, if_neg hkey]
  cases value <;> simp only [encodeProperty, bind_assoc, pure_bind]

/-- What the first property adds comes before what the others add. -/
theorem yields_encodeEntries_cons_iff {codec : Codec} {subject key : String}
    (hkey : key ≠ Vocabulary.idKey) {value : Value} {rest : List (String × Value)} {m m' : Mint}
    {emitted : Emitted} :
    Yields (encodeEntries codec subject ((key, value) :: rest)) m emitted m' ↔
      ∃ predicate here after m₁, encodeKey key = .ok predicate ∧
        Yields (encodeProperty codec subject predicate key value) m here m₁ ∧
        Yields (encodeEntries codec subject rest) m₁ after m' ∧
        emitted = ⟨here.nested ++ after.nested, here.own ++ after.own⟩ := by
  rw [encodeEntries_cons codec subject hkey]
  constructor
  · intro h
    obtain ⟨predicate, m₀, hlift, h⟩ := Yields.bind_iff.1 h
    obtain ⟨here, m₁, hhere, h⟩ := Yields.bind_iff.1 h
    obtain ⟨after, m₂, hrest, h⟩ := Yields.bind_iff.1 h
    obtain ⟨rfl, rfl⟩ := Yields.pure_iff.1 h
    obtain ⟨hok, rfl⟩ := Yields.minting_lift_iff.1 hlift
    exact ⟨predicate, here, after, m₁, hok, hhere, hrest, rfl⟩
  · rintro ⟨predicate, here, after, m₁, hok, hhere, hrest, rfl⟩
    refine Yields.bind_iff.2 ⟨predicate, m, Yields.minting_lift_iff.2 ⟨hok, rfl⟩, ?_⟩
    refine Yields.bind_iff.2 ⟨here, m₁, hhere, ?_⟩
    exact Yields.bind_iff.2 ⟨after, m', hrest, Yields.pure_iff.2 ⟨rfl, rfl⟩⟩

end Triple

namespace Pattern

open Compiling

/-- The edges that one property adds to its node, in either direction. -/
def compileProperty (check : RegexCheck) (codec : Codec) (node : Nat) (subject : String)
    (direction : Direction) :
    Value → Compiling Edges
  | .list items => compileObjects check codec node subject direction items
  | single => do
    let (object, filters) ← compileObject check codec node direction.inverse single
    pure ⟨[direction.edge subject object], filters⟩

/-- One optional branch, or a list of them. -/
def compileOptional (check : RegexCheck) (codec : Codec) (subject : String) : Value → Compiling Unit
  | .list branches => compileBranches check codec subject branches
  | branch => compileBranch check codec subject branch

/-- The edge that a key stands for, if it stands for one. -/
def direction? : PatternKey → Option (Compiling Direction)
  | .inverse name => some do return ⟨← lift (Literal.encodeTerm name), true⟩
  | .wildcard name => some do return ⟨← wildcardToken name, false⟩
  | .property predicate => some (return ⟨predicate, false⟩)
  | .id | .optional | .operator _ => none

/-- The variable of a wildcard, and what making it does to the group. -/
inductive MakesWildcard (g : Group) : Option String → String → Group → Prop where
  /-- a wildcard without a name takes the next number -/
  | anonymous :
    MakesWildcard g none (Group.wildcardVariable g.nodeCounter) g.anonymousVariable.2
  /-- a name that is a word is kept -/
  | named {name : String} (hword : Text.isWord name = true) :
    MakesWildcard g (some name) ("?" ++ name) (g.namedVariable name).2

theorem makes_of_wildcardToken {name? : Option String} {g g' : Group} {token : String}
    (h : Yields (wildcardToken name?) g token g') : MakesWildcard g name? token g' := by
  cases name? with
  | none =>
    obtain ⟨rfl, rfl⟩ := Yields.step_iff.1 h
    exact .anonymous
  | some name =>
    rw [wildcardToken] at h
    split at h
    · rename_i hword
      obtain ⟨rfl, rfl⟩ := Yields.step_iff.1 h
      exact .named hword
    · exact (Yields.throw_iff.1 h).elim

/-- The edge that a key gives, and what making it does to the group. -/
inductive Turns (g : Group) : PatternKey → Direction → Group → Prop where
  /-- an edge that is followed backwards -/
  | inverse {name predicate : String} (hterm : Literal.encodeTerm name = .ok predicate) :
    Turns g (.inverse name) ⟨predicate, true⟩ g
  /-- a variable in the place of the property -/
  | wildcard {name? : Option String} {token : String} {g' : Group}
    (made : Yields (wildcardToken name?) g token g') : Turns g (.wildcard name?) ⟨token, false⟩ g'
  /-- a property -/
  | property {predicate : String} : Turns g (.property predicate) ⟨predicate, false⟩ g

theorem turns_of_direction {kind : PatternKey} {x : Compiling Direction} {d : Direction}
    {g g' : Group} (hx : direction? kind = some x) (h : Yields x g d g') : Turns g kind d g' := by
  cases kind with
  | id | optional | operator _ => cases hx
  | inverse name =>
    obtain rfl := Option.some.inj hx
    obtain ⟨predicate, g₁, hlift, hend⟩ := Yields.bind_iff.1 h
    obtain ⟨hterm, rfl⟩ := Yields.compiling_lift_iff.1 hlift
    obtain ⟨rfl, rfl⟩ := Yields.pure_iff.1 hend
    exact .inverse hterm
  | wildcard name? =>
    obtain rfl := Option.some.inj hx
    obtain ⟨predicate, g₁, hmade, hend⟩ := Yields.bind_iff.1 h
    obtain ⟨rfl, rfl⟩ := Yields.pure_iff.1 hend
    exact .wildcard hmade
  | property predicate =>
    obtain rfl := Option.some.inj hx
    obtain ⟨rfl, rfl⟩ := Yields.pure_iff.1 h
    exact .property

/-- What one entry of a node contributes, once its key is classified. -/
def compileKey (check : RegexCheck) (codec : Codec) (node : Nat) (subject key : String)
    (value : Value) (kind : PatternKey) : Compiling Edges :=
  match direction? kind with
  | some direction => do compileProperty check codec node subject (← direction) value
  | none =>
    match kind with
    | .optional => do
      compileOptional check codec subject value
      pure .none
    | .operator _ => throw (.invalidFilter (.mixedOperator key))
    | _ => pure .none

theorem compileKey_direction (check : RegexCheck) (codec : Codec) (node : Nat)
    (subject key : String) (value : Value) {kind : PatternKey} {x : Compiling Direction}
    (h : direction? kind = some x) :
    compileKey check codec node subject key value kind =
      (do compileProperty check codec node subject (← x) value) := by
  cases kind with
  | id | optional | operator _ => cases h
  | inverse _ | wildcard _ | property _ =>
    obtain rfl := Option.some.inj h
    rfl

/-- What one entry of a node contributes. -/
def compileEntry (check : RegexCheck) (codec : Codec) (node : Nat) (subject key : String)
    (value : Value) :
    Compiling Edges := do
  compileKey check codec node subject key value (← lift (PatternKey.resolve key))

theorem compileEntries_cons (check : RegexCheck) (codec : Codec) (node : Nat) (subject key : String)
    (value : Value) (rest : List (String × Value)) :
    compileEntries check codec node subject ((key, value) :: rest) = (do
      let here ← compileEntry check codec node subject key value
      let edges ← compileEntries check codec node subject rest
      return here.append edges) := by
  rw [compileEntries, compileEntry, bind_assoc]
  refine bind_congr fun kind => ?_
  cases kind with
  | id | operator _ => rfl
  | optional =>
    cases value <;> simp only [compileKey, direction?, compileOptional, bind_assoc, pure_bind]
  | inverse _ | wildcard _ | property _ =>
    cases value <;>
      simp only [compileKey, direction?, compileProperty, bind_assoc, pure_bind] <;> rfl

/-- Opening a node whose subject token is known. -/
theorem yields_openNode {codec : Codec} {entries : Node} {id : Option String} {g : Group}
    (h : Yields (subjectToken codec (identifier? entries)) g.nextNodeId.2 id
      g.nextNodeId.2) (inverse : Bool) :
    Yields (openNode codec entries inverse) g
      (g.nodeCounter, (g.nextNodeId.2.registerNode id g.nodeCounter inverse).1)
      (g.nextNodeId.2.registerNode id g.nodeCounter inverse).2 := by
  refine Yields.bind_iff.2 ⟨g.nodeCounter, g.nextNodeId.2, Yields.step_iff.2 ⟨rfl, rfl⟩, ?_⟩
  refine Yields.bind_iff.2 ⟨id, g.nextNodeId.2, h, ?_⟩
  refine Yields.bind_iff.2 ⟨_, _, Yields.step_iff.2 ⟨rfl, rfl⟩, ?_⟩
  exact Yields.pure_iff.2 ⟨rfl, rfl⟩

/-- Compile a node wherever it stands. -/
def compileNode (check : RegexCheck) (codec : Codec) (entries : Node) (inverse : Bool) : Compiling
    CompiledNode := do
  let (node, vars) ← openNode codec entries inverse
  let edges ← compileEntries check codec node vars.subject entries
  closeNode vars edges
  return ⟨node, vars.subject⟩

/-- A filter is read, takes the next variable of its node, and is written about it. -/
theorem compileFilter_spec {check : RegexCheck} {codec : Codec} {entries : Node} {node : Nat}
    {g g' : Group} {filter : BoundFilter}
    (h : Yields (compileFilter check codec entries node) g filter g') :
    ∃ f body, Filter.ofNode check entries = .ok f ∧
      f.render codec (g.freshFilterVariable node).1 = .ok body ∧
      filter = ⟨(g.freshFilterVariable node).1, Filter.clauseText body⟩ ∧
      g' = (g.freshFilterVariable node).2 := by
  obtain ⟨f, g₁, hreading, h⟩ := Yields.bind_iff.1 h
  obtain ⟨token, g₂, htoken, h⟩ := Yields.bind_iff.1 h
  obtain ⟨body, g₃, hwriting, h⟩ := Yields.bind_iff.1 h
  obtain ⟨hread, rfl⟩ := Yields.compiling_lift_iff.1 hreading
  obtain ⟨rfl, rfl⟩ := Yields.step_iff.1 htoken
  obtain ⟨hbody, rfl⟩ := Yields.compiling_lift_iff.1 hwriting
  obtain ⟨rfl, rfl⟩ := Yields.pure_iff.1 h
  exact ⟨f, body, hread, hbody, rfl, rfl⟩

theorem compileObject_filter (check : RegexCheck) (codec : Codec) (node : Nat) (inverse : Bool)
    {entries : Node} (hfilter : Filter.isFilter entries = true) :
    compileObject check codec node inverse (.node entries) = (do
      let filter ← compileFilter check codec entries node
      return (filter.token, [filter])) := by
  rw [compileObject, hfilter]
  rfl

theorem compileObject_node (check : RegexCheck) (codec : Codec) (node : Nat) (inverse : Bool)
    {entries : Node} (hfilter : Filter.isFilter entries = false) :
    compileObject check codec node inverse (.node entries) = (do
      let compiled ← compileNode check codec entries inverse
      return (compiled.subject, [])) := by
  rw [compileObject, hfilter]
  simp only [compileNode, bind_assoc, pure_bind]
  rfl

theorem compileBranch_filter (check : RegexCheck) (codec : Codec) (subject : String)
    {entries : Node} (hfilter : Filter.isFilter entries = true) :
    compileBranch check codec subject (.node entries) =
      throw (.invalidFilter .optionalFilter) := by
  rw [compileBranch, hfilter]
  rfl

theorem compileBranch_node (check : RegexCheck) (codec : Codec) (subject : String) {entries : Node}
    (hfilter : Filter.isFilter entries = false) :
    compileBranch check codec subject (.node entries) = (do
      change Group.enterOptional
      let compiled ← compileNode check codec entries false
      change (·.demote compiled.node subject)
      change Group.exitOptional) := by
  rw [compileBranch, hfilter]
  simp only [compileNode, bind_assoc, pure_bind]
  rfl

/-- A scalar is compiled to its literal. -/
theorem compileObject_scalar (check : RegexCheck) (codec : Codec) (node : Nat) (inverse : Bool)
    {v : Value} (h : v.isScalar = true) :
    compileObject check codec node inverse v =
      (do return (← lift (codec.encodeLiteral v), [])) := by
  cases v with
  | node _ | list _ | wildcard _ => cases h
  | null | boolean _ | integer _ | float _ | string _ | timestamp _ | reference _ | term _ | iri _
    | custom _ _ =>
    rw [compileObject]
    all_goals
      intros
      contradiction

/-- Only nodes can be optional branches. -/
theorem compileBranch_other (check : RegexCheck) (codec : Codec) (subject : String) {v : Value}
    (h : v.node? = none) :
    compileBranch check codec subject v = throw (.unsupported (.optionalKind v.kind)) := by
  cases v with
  | node _ => cases h
  | _ =>
    rw [compileBranch]
    intros
    contradiction

theorem compileInto_eq (check : RegexCheck) (codec : Codec) {pattern : Node}
    (hfilter : Filter.isFilter pattern = false) :
    compileInto check codec pattern = compileNode check codec pattern false := by
  rw [compileInto, hfilter]
  rfl

end Pattern

end LinkedData
