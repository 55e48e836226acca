import LinkedData.Proofs.Query.Naming

/-!
# The trail of a pattern

Compiling walks over a pattern in pre-order. What it comes across is told here without the
group that is built on the way: nodes begin and end, variables are made, and the clauses of an
optional branch are handed over to the node that holds it. Laws about a group as a whole are
stated on this trail.

Nodes and anonymous wildcards share one count, so the number of a node is the count of what
came before it. Filters leave no trail: their variables are counted apart.
-/

namespace LinkedData

/-- Where a node stands in a pattern. -/
inductive Place where
  /-- alone, or where an edge leads to -/
  | plain
  /-- where an edge that is followed backwards leads to -/
  | inverse
  /-- in an optional branch of the node with the given subject -/
  | branch (parent : String)
  deriving DecidableEq

/-- What compiling comes across. -/
inductive Event where
  /-- a node with the subject begins -/
  | opened (subject : String) (place : Place)
  /-- a wildcard without a name -/
  | anonymous
  /-- a variable that the caller named -/
  | named (token : String)
  /-- a node ends, inside so many optional branches; its own edges state the tokens -/
  | closed (depth : Nat) (stated : List String)
  /-- an optional branch ends, inside so many of them with itself: its clauses are handed over
  from its own subject to that of the node that holds it -/
  | joined (depth : Nat) (subject parent : String)
  deriving DecidableEq

namespace Event

/-- Is a number given away? -/
def isNumbered : Event → Bool
  | .opened _ _ | .anonymous => true
  | .named _ | .closed _ _ | .joined _ _ _ => false

/-- The variable that the caller named. -/
def name? : Event → Option String
  | .named token => some token
  | _ => none

/-- The subject of a node that is described: no inverse edge leads to it, and it is no optional
branch. -/
def described? : Event → Option String
  | .opened subject .plain => some subject
  | _ => none

/-- The subject of an optional branch that ends. -/
def joined? : Event → Option String
  | .joined _ subject _ => some subject
  | _ => none

end Event

/-- What compiling comes across, in order. -/
abbrev Trail := List Event

namespace Trail

/-- How many numbers are given away. -/
def numbers (trail : Trail) : Nat :=
  trail.countP Event.isNumbered

/-- The variables that the caller named. -/
def names (trail : Trail) : List String :=
  trail.filterMap Event.name?

/-- The subjects of the nodes that are described. -/
def described (trail : Trail) : List String :=
  trail.filterMap Event.described?

/-- The subjects of the optional branches. -/
def joined (trail : Trail) : List String :=
  trail.filterMap Event.joined?

@[simp] theorem numbers_append (a b : Trail) : numbers (a ++ b) = a.numbers + b.numbers :=
  List.countP_append

@[simp] theorem names_append (a b : Trail) : names (a ++ b) = a.names ++ b.names :=
  List.filterMap_append

@[simp] theorem described_append (a b : Trail) :
    described (a ++ b) = a.described ++ b.described :=
  List.filterMap_append

@[simp] theorem joined_append (a b : Trail) : joined (a ++ b) = a.joined ++ b.joined :=
  List.filterMap_append

end Trail

/-! ## Nodes -/

namespace Place

/-- The place where an edge leads to. -/
def ofEdge (inverse : Bool) : Place :=
  if inverse then .inverse else .plain

/-- How many optional branches are around what stands in a place. -/
def depth : Place → Nat → Nat
  | .branch _, outside => outside + 1
  | .plain, outside | .inverse, outside => outside

theorem depth_ofEdge (inverse : Bool) (outside : Nat) :
    (ofEdge inverse).depth outside = outside := by
  cases inverse <;> rfl

/-- What follows when a node in a place has ended. -/
def leave (depth : Nat) (subject : String) : Place → Trail
  | .branch parent => [.joined depth subject parent]
  | .plain | .inverse => []

end Place

/-- The trail of a wildcard. -/
def wildcardTrail : Option String → Trail
  | none => [.anonymous]
  | some name => [.named ("?" ++ name)]

namespace PatternKey

/-- The trail of a key. -/
def trail : PatternKey → Trail
  | .wildcard name => wildcardTrail name
  | .id | .optional | .inverse _ | .operator _ | .property _ => []

/-- Where the nodes behind a key stand, if the node that has the key has the subject. -/
def place? (subject : String) : PatternKey → Option Place
  | .optional => some (.branch subject)
  | .inverse _ => some .inverse
  | .wildcard _ | .property _ => some .plain
  | .id | .operator _ => none

/-- Does the key stand for edges? -/
def isEdge : PatternKey → Bool
  | .inverse _ | .wildcard _ | .property _ => true
  | .id | .optional | .operator _ => false

end PatternKey

/-! ## What the edges of a node state -/

/-- The token of a named wildcard or of a scalar. -/
def valueTokens (codec : Codec) : Value → List String
  | .wildcard (some name) => ["?" ++ name]
  | v => (codec.encodeLiteral v).toOption.toList

theorem valueTokens_scalar (codec : Codec) {v : Value} (h : v.isScalar = true) :
    valueTokens codec v = (codec.encodeLiteral v).toOption.toList := by
  cases v with
  | wildcard _ => cases h
  | _ => rfl

/-- The values behind a key, each of which has an edge of its own. -/
def Value.elements : Value → List Value
  | .list items => items
  | single => [single]

theorem Value.elements_single {v : Value} (h : ∀ items, v ≠ .list items) : v.elements = [v] := by
  cases v with
  | list items => exact absurd rfl (h items)
  | _ => rfl

/-- The tokens that one entry of a node states: the variable in place of the property, and what
the edges lead to. An empty list has no edge. -/
def entryTokens (codec : Codec) (entry : String × Value) : List String :=
  match PatternKey.resolve entry.1 with
  | .ok kind =>
    if kind.isEdge then
      entry.2.elements.flatMap fun v => kind.trail.names ++ valueTokens codec v
    else []
  | .error _ => []

/-- The tokens that a node states: its subject, and what its edges state. -/
def nodeTokens (codec : Codec) (subject : String) (entries : Node) : List String :=
  subject :: entries.flatMap (entryTokens codec)

/-! ## The trail -/

/-- The trail of a node, around that of its entries. -/
def nodeTrail (codec : Codec) (depth number : Nat) (place : Place) (entries : Node)
    (inner : Trail) : Trail :=
  let subject := subjectOf number entries
  (identifierNames (identifier? entries)).map .named ++ .opened subject place ::
    (inner ++ .closed depth (nodeTokens codec subject entries) :: place.leave depth subject)

section

variable (codec : Codec) (depth number : Nat) (place : Place) (entries : Node) (inner : Trail)

@[simp] theorem numbers_nodeTrail :
    (nodeTrail codec depth number place entries inner).numbers = inner.numbers + 1 := by
  have hnames : ∀ tokens : List String, (tokens.map Event.named).countP Event.isNumbered = 0 :=
    fun tokens => List.countP_eq_zero.2 (by simp [Event.isNumbered])
  have hleave : (place.leave depth (subjectOf number entries)).countP Event.isNumbered = 0 := by
    cases place <;> rfl
  simp [nodeTrail, Trail.numbers, List.countP_cons, Event.isNumbered, hnames, hleave]

@[simp] theorem names_nodeTrail :
    (nodeTrail codec depth number place entries inner).names =
      identifierNames (identifier? entries) ++ inner.names := by
  have hleave : (place.leave depth (subjectOf number entries)).filterMap Event.name? = [] := by
    cases place <;> rfl
  simp [nodeTrail, Trail.names, List.filterMap_cons, Event.name?, List.filterMap_map, hleave,
    Function.comp_def]

end

namespace Pattern

mutual

/-- The trail of a value in a place, inside so many optional branches, when the given number is
the next one. -/
def trail (codec : Codec) (outside number : Nat) (place : Place) : Value → Trail
  | .node entries =>
    if Filter.isFilter entries then []
    else
      nodeTrail codec (place.depth outside) number place entries
        (trailEntries codec (place.depth outside) (number + 1) (subjectOf number entries) entries)
  | .list items => trailItems codec outside number place items
  | .wildcard name => wildcardTrail name
  | _ => []

/-- The trail of several values. -/
def trailItems (codec : Codec) (outside number : Nat) (place : Place) : List Value → Trail
  | [] => []
  | item :: rest =>
    let here := trail codec outside number place item
    here ++ trailItems codec outside (number + here.numbers) place rest

/-- The trail of the entries of a node with a subject. -/
def trailEntries (codec : Codec) (depth number : Nat) (subject : String) :
    List (String × Value) → Trail
  | [] => []
  | (key, value) :: rest =>
    let here :=
      match PatternKey.resolve key with
      | .ok kind =>
        match kind.place? subject with
        | some place =>
          kind.trail ++ trail codec depth (number + kind.trail.numbers) place value
        | none => []
      | .error _ => []
    here ++ trailEntries codec depth (number + here.numbers) subject rest

end

/-- The trail of one entry of a node. -/
def trailEntry (codec : Codec) (depth number : Nat) (subject key : String) (value : Value) :
    Trail :=
  match PatternKey.resolve key with
  | .ok kind =>
    match kind.place? subject with
    | some place => kind.trail ++ trail codec depth (number + kind.trail.numbers) place value
    | none => []
  | .error _ => []

theorem trailEntries_cons (codec : Codec) (depth number : Nat) (subject key : String)
    (value : Value) (rest : List (String × Value)) :
    trailEntries codec depth number subject ((key, value) :: rest) =
      trailEntry codec depth number subject key value ++
        trailEntries codec depth
          (number + (trailEntry codec depth number subject key value).numbers) subject rest := by
  rw [trailEntries]
  rfl

theorem trail_scalar (codec : Codec) (outside number : Nat) (place : Place) {v : Value}
    (h : v.isScalar = true) : trail codec outside number place v = [] := by
  cases v with
  | node _ | list _ | wildcard _ => cases h
  | _ => rw [trail] <;> intros <;> contradiction

/-- The trail of a pattern. -/
def trailOf (codec : Codec) (pattern : Node) : Trail :=
  trail codec 0 0 .plain (.node pattern)

/-! ### No node is left out -/

/-- The node stands in the value at some depth, outside of filters: it is the value itself, or in
an element of a list, or behind a key that stands for edges or for optional branches. -/
inductive Contains (inner : Node) : Value → Prop where
  /-- the value is the node -/
  | self (hfilter : Filter.isFilter inner = false) : Contains inner (.node inner)
  /-- an element of a list contains the node -/
  | item {items : List Value} {v : Value} (hv : v ∈ items) (h : Contains inner v) :
      Contains inner (.list items)
  /-- an entry of a node contains the node -/
  | entry {entries : Node} {key : String} {value : Value} {kind : PatternKey}
      (hfilter : Filter.isFilter entries = false) (hentry : (key, value) ∈ entries)
      (hkind : PatternKey.resolve key = .ok kind) (hedge : kind.isEdge = true ∨ kind = .optional)
      (h : Contains inner value) : Contains inner (.node entries)

theorem trail_subset_trailItems (codec : Codec) (outside : Nat) (place : Place) {v : Value}
    {items : List Value} (hv : v ∈ items) (number : Nat) :
    ∃ number', trail codec outside number' place v ⊆
      trailItems codec outside number place items := by
  induction items generalizing number with
  | nil => cases hv
  | cons item rest ih =>
    rw [trailItems]
    rcases List.mem_cons.1 hv with rfl | hv
    · exact ⟨number, List.subset_append_left _ _⟩
    · obtain ⟨number', hsub⟩ := ih hv _
      exact ⟨number', List.Subset.trans hsub (List.subset_append_right _ _)⟩

theorem trail_subset_trailEntries (codec : Codec) (depth : Nat) {subject key : String}
    {value : Value} {kind : PatternKey} {place : Place} {entries : Node}
    (hentry : (key, value) ∈ entries) (hkind : PatternKey.resolve key = .ok kind)
    (hplace : kind.place? subject = some place) (number : Nat) :
    ∃ number', trail codec depth number' place value ⊆
      trailEntries codec depth number subject entries := by
  induction entries generalizing number with
  | nil => cases hentry
  | cons entry rest ih =>
    obtain ⟨k, v⟩ := entry
    rw [trailEntries_cons]
    rcases List.mem_cons.1 hentry with heq | hentry
    · obtain ⟨rfl, rfl⟩ := Prod.mk.inj heq
      rw [trailEntry, hkind]
      dsimp only
      rw [hplace]
      exact ⟨_, List.Subset.trans (List.subset_append_right _ _) (List.subset_append_left _ _)⟩
    · obtain ⟨number', hsub⟩ := ih hentry _
      exact ⟨number', List.Subset.trans hsub (List.subset_append_right _ _)⟩

/-- Every node that a value contains ends on its trail. -/
theorem closed_of_contains (codec : Codec) {inner : Node} {v : Value} (h : Contains inner v)
    (outside number : Nat) (place : Place) : ∃ depth number',
      .closed depth (nodeTokens codec (subjectOf number' inner) inner) ∈
        trail codec outside number place v := by
  induction h generalizing outside number place with
  | self hfilter =>
    refine ⟨place.depth outside, number, ?_⟩
    rw [trail, hfilter, if_neg Bool.false_ne_true, nodeTrail]
    simp
  | item hv h ih =>
    rw [trail]
    obtain ⟨number', hsub⟩ := trail_subset_trailItems codec outside place hv number
    obtain ⟨depth, number'', hclosed⟩ := ih outside number' place
    exact ⟨depth, number'', hsub hclosed⟩
  | @entry entries key value kind hfilter hentry hkind hedge h ih =>
    obtain ⟨inside, hplace⟩ : ∃ inside,
        kind.place? (subjectOf number entries) = some inside := by
      cases kind with
      | id | operator _ => simp [PatternKey.isEdge] at hedge
      | optional | inverse _ | wildcard _ | property _ => exact ⟨_, rfl⟩
    obtain ⟨number', hsub⟩ :=
      trail_subset_trailEntries codec (place.depth outside) hentry hkind hplace (number + 1)
    obtain ⟨depth, number'', hclosed⟩ := ih (place.depth outside) number' inside
    refine ⟨depth, number'', ?_⟩
    rw [trail, hfilter, if_neg Bool.false_ne_true, nodeTrail]
    refine List.mem_append_right _ (List.mem_cons_of_mem _ (List.mem_append_left _ ?_))
    exact hsub hclosed

end Pattern

end LinkedData
