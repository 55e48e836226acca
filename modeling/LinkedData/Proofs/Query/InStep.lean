import LinkedData.Proofs.Pattern.Key
import LinkedData.Proofs.Property
import LinkedData.Proofs.Query.Variable

/-!
# Encoding and compiling in step

An object can be stored, and it can be asked for. Two walks over it are involved: encoding
turns it into triples and mints identifiers for anonymous nodes, compiling turns it into
clauses and makes variables for them. Both number the nodes in pre-order and write nested
nodes before the node that holds them, so the walks stay in step (`InStep`): each triple
has its clause, and the clause becomes the triple once every subject variable is replaced
by the identifier minted for its node.

Here are the relation, what the two walks make of keys, and how a node is opened and closed.
-/

namespace LinkedData

open Literal

/-! ## Keys -/

theorem startsWith_of_filterOp {key : String} {op : FilterOp}
    (h : FilterOp.ofKey? key = some op) : Text.startsWith "$" key = true := by
  rw [FilterOp.ofKey?.eq_def] at h
  split at h
  case h_14 => cases h
  all_goals decide +kernel

theorem resolve_of_encodeKey {key predicate : String} (h : Triple.encodeKey key = .ok predicate) :
    PatternKey.resolve key = .ok (.property predicate) := by
  obtain ⟨hdollar, hquestion, hterm⟩ := encodeKey_eq_ok h
  exact PatternKey.resolve_property hdollar hquestion hterm

/-! ## Two walks in step -/

/-- The renaming puts the locators of the listed nodes in the place of their subject
variables, and leaves all other tokens alone. -/
def Fills (f : String → String) (filling : List (Nat × Reference)) : Prop :=
  (∀ pair ∈ filling, f (Group.subjectVariable pair.1) = bracketed pair.2.locator) ∧
    ∀ token, isVariable token = false → f token = token

theorem Fills.left {f : String → String} {p q : List (Nat × Reference)} (h : Fills f (p ++ q)) :
    Fills f p :=
  ⟨fun pair hp => h.1 pair (List.mem_append_left q hp), h.2⟩

theorem Fills.right {f : String → String} {p q : List (Nat × Reference)} (h : Fills f (p ++ q)) :
    Fills f q :=
  ⟨fun pair hp => h.1 pair (List.mem_append_right p hp), h.2⟩

/-- A stretch of encoding and the same stretch of compiling. Both pass the same nodes; the
identifiers minted belong to the anonymous ones among them; and the clauses that must match
become the triples once the identifiers are filled in. Compiling touches nothing optional
and names no variable. -/
structure InStep (nodes : List Node) (m m' : Mint) (g g' : Group)
    (filling : List (Nat × Reference)) (clauses : List Clause) (triples : List Triple) : Prop where
  /-- the minted identifiers, in order -/
  minted : m'.minted = m.minted ++ filling.map Prod.snd
  /-- the numbers of the anonymous nodes, in order -/
  numbers : filling.map Prod.fst = anonymousFrom g.nodeCounter nodes
  /-- every node takes one number -/
  counter : g'.nodeCounter = g.nodeCounter + nodes.length
  /-- the clauses are added to those that must match -/
  required : g'.required = g.required ++ clauses
  /-- no optional block is opened or closed -/
  depth : g'.optionalDepth = g.optionalDepth
  /-- nothing is held back -/
  buffer : g'.optionalBuffer = g.optionalBuffer
  /-- no optional block is sealed -/
  blocks : g'.optionalBlocks = g.optionalBlocks
  /-- no variable is named -/
  tuples : g'.tupleVariables = g.tupleVariables
  /-- the clauses become the triples -/
  filled : ∀ f, Fills f filling → clauses.map (Clause.mapTokens f) = triples.map .triple

theorem InStep.refl (m : Mint) (g : Group) : InStep [] m m g g [] [] [] where
  minted := (List.append_nil _).symm
  numbers := rfl
  counter := rfl
  required := (List.append_nil _).symm
  depth := rfl
  buffer := rfl
  blocks := rfl
  tuples := rfl
  filled := fun _ _ => rfl

theorem InStep.trans {ns ns' : List Node} {m m' m'' : Mint} {g g' g'' : Group}
    {p p' : List (Nat × Reference)} {cs cs' : List Clause} {ts ts' : List Triple}
    (h : InStep ns m m' g g' p cs ts) (h' : InStep ns' m' m'' g' g'' p' cs' ts') :
    InStep (ns ++ ns') m m'' g g'' (p ++ p') (cs ++ cs') (ts ++ ts') where
  minted := by rw [h'.minted, h.minted, List.map_append, List.append_assoc]
  numbers := by
    rw [List.map_append, h.numbers, h'.numbers, h.counter, anonymousFrom_append]
  counter := by rw [h'.counter, h.counter, List.length_append, Nat.add_assoc]
  required := by rw [h'.required, h.required, List.append_assoc]
  depth := h'.depth.trans h.depth
  buffer := h'.buffer.trans h.buffer
  blocks := h'.blocks.trans h.blocks
  tuples := h'.tuples.trans h.tuples
  filled := by
    intro f hf
    rw [List.map_append, List.map_append, h.filled f hf.left, h'.filled f hf.right]

/-! ## Opening a node -/

/-- Registering a node under a token adds no clause. -/
theorem InStep.open {entries : Node} {m m' : Mint} {filling : List (Nat × Reference)}
    (hminted : m'.minted = m.minted ++ filling.map Prod.snd) (g : Group)
    (hnumbers : filling.map Prod.fst = anonymousFrom g.nodeCounter [entries])
    (id : Option String) (inverse : Bool) :
    InStep [entries] m m' g (g.nextNodeId.2.registerNode id g.nodeCounter inverse).2
      filling [] [] where
  minted := hminted
  numbers := hnumbers
  counter := rfl
  required := (List.append_nil _).symm
  depth := rfl
  buffer := rfl
  blocks := rfl
  tuples := rfl
  filled := fun _ _ => rfl

/-- A node whose identifier is given has the same subject in both walks. -/
theorem openNode_of_token {codec : Codec} {entries : Node} {token : String} (m : Mint) (g : Group)
    (inverse : Bool) (hsome : isAnonymous entries = false) (hvar : isVariable token = false)
    (h : Yields (Pattern.subjectToken codec (identifier? entries)) g.nextNodeId.2 (some token)
      g.nextNodeId.2) :
    ∃ filling vars g', Yields (Pattern.openNode codec entries inverse) g (g.nodeCounter, vars) g' ∧
      InStep [entries] m m g g' filling [] [] ∧
      ∀ f, Fills f filling → f vars.subject = token := by
  refine ⟨[], _, _, Pattern.yields_openNode h inverse, .open (List.append_nil _).symm g ?_ _ _, ?_⟩
  · rw [anonymousFrom, hsome]
    rfl
  · intro f hf
    exact hf.2 token hvar

theorem openNode_of_subjectOf (codec : Codec) {entries : Node} {m m' : Mint} {subject : String}
    (hid : identifier? entries ≠ some .null)
    (h : Yields (Triple.subjectOf (identifier? entries)) m subject m') (g : Group)
    (inverse : Bool) :
    ∃ filling vars g', Yields (Pattern.openNode codec entries inverse) g (g.nodeCounter, vars) g' ∧
      InStep [entries] m m' g g' filling [] [] ∧
      ∀ f, Fills f filling → f vars.subject = subject := by
  rcases Triple.yields_subjectOf_iff.1 h with ⟨hnone, id, hfresh, rfl⟩ | ⟨v, hi, hv, rfl⟩
  · -- an anonymous node: an identifier here, a variable there
    have hi := hnone.resolve_right hid
    obtain ⟨-, rfl⟩ := Yields.fresh_iff.1 hfresh
    have htoken : Yields (Pattern.subjectToken codec (identifier? entries)) g.nextNodeId.2 none
        g.nextNodeId.2 := by
      rw [hi]
      exact Yields.pure_iff.2 ⟨rfl, rfl⟩
    refine ⟨[(g.nodeCounter, id)], _, _, Pattern.yields_openNode htoken inverse,
      .open rfl g ?_ _ _, ?_⟩
    · rw [anonymousFrom, isAnonymous, hi]
      rfl
    · intro f hf
      exact hf.1 (g.nodeCounter, id) List.mem_cons_self
  · have hsome : isAnonymous entries = false := by
      rw [isAnonymous, hi]
      rfl
    cases hv with
    | reference r =>
      refine openNode_of_token m' g inverse hsome (not_isVariable_bracketed _) ?_
      rw [hi]
      exact Yields.pure_iff.2 ⟨rfl, rfl⟩
    | name hname =>
      refine openNode_of_token m' g inverse hsome (not_isVariable_bracketed _) ?_
      rw [hi, Pattern.subjectToken, hname]
      exact Yields.pure_iff.2 ⟨rfl, rfl⟩
    | iri locator =>
      refine openNode_of_token m' g inverse hsome (not_isVariable_bracketed _) ?_
      rw [hi]
      exact Yields.pure_iff.2 ⟨rfl, rfl⟩

/-! ## Closing a node -/

/-- The edges of a node and its own triples. The edges carry no filter, and become the
triples once the identifiers are filled in. -/
structure EdgesInStep (filling : List (Nat × Reference)) (subject root : String)
    (edges : Pattern.Edges) (own : List Triple) : Prop where
  /-- no edge carries a filter -/
  filters : edges.filters = []
  /-- every triple has its edge -/
  length : edges.triples.length = own.length
  /-- the edges become the triples -/
  filled : ∀ f, Fills f filling → f subject = root → edges.triples.map (Triple.mapTokens f) = own

theorem EdgesInStep.none (filling : List (Nat × Reference)) (subject root : String) :
    EdgesInStep filling subject root .none [] where
  filters := rfl
  length := rfl
  filled := fun _ _ _ => rfl

theorem EdgesInStep.append {p q : List (Nat × Reference)} {subject root : String}
    {es es' : Pattern.Edges} {own own' : List Triple} (h : EdgesInStep p subject root es own)
    (h' : EdgesInStep q subject root es' own') :
    EdgesInStep (p ++ q) subject root (es.append es') (own ++ own') where
  filters := by rw [Pattern.Edges.append, h.filters, h'.filters, List.append_nil]
  length := by
    rw [Pattern.Edges.append, List.length_append, List.length_append, h.length, h'.length]
  filled := by
    intro f hf hs
    rw [Pattern.Edges.append, List.map_append, h.filled f hf.left hs, h'.filled f hf.right hs]

/-- A single edge to a token that becomes the object of the triple. -/
theorem EdgesInStep.single {filling : List (Nat × Reference)} {subject root token object : String}
    {predicate : String} (hp : isVariable predicate = false)
    (ho : ∀ f, Fills f filling → f token = object) :
    EdgesInStep filling subject root ⟨[⟨subject, predicate, token⟩], []⟩
      [⟨root, predicate, object⟩] where
  filters := rfl
  length := rfl
  filled := by
    intro f hf hs
    rw [List.map_singleton, Triple.mapTokens, hs, hf.2 predicate hp, ho f hf]

/-- A node with edges adds them behind everything that was nested in it. -/
theorem InStep.close {ns : List Node} {m m' : Mint} {g g' : Group} {p : List (Nat × Reference)}
    {cs : List Clause} {nested own : List Triple} {vars : NodeVariables} {root : String}
    {edges : Pattern.Edges} (h : InStep ns m m' g g' p cs nested)
    (he : EdgesInStep p vars.subject root edges own) (hs : ∀ f, Fills f p → f vars.subject = root)
    (hown : own ≠ []) (hdepth : g.optionalDepth = 0) :
    ∃ g'', Yields (Pattern.closeNode vars edges) g' () g'' ∧
      InStep ns m m' g g'' p (cs ++ edges.triples.map .triple) (nested ++ own) := by
  have hedges : edges.triples.isEmpty = false := by
    rw [Bool.eq_false_iff, ne_eq, List.isEmpty_iff_length_eq_zero, he.length]
    exact fun h0 => hown (List.length_eq_zero_iff.1 h0)
  have hopen : g'.inOptional = false := by
    rw [Group.inOptional, h.depth, hdepth]
    rfl
  refine ⟨{ g' with required := g'.required ++ edges.triples.map .triple }, ?_, ?_⟩
  · refine Yields.change_iff.2 ?_
    rw [hedges, he.filters, Group.append, hopen, if_neg Bool.false_ne_true,
      if_neg Bool.false_ne_true, List.map_nil, List.append_nil]
  · exact
      { h with
        required := by
          rw [h.required, List.append_assoc]
        filled := by
          intro f hf
          have hmap : (edges.triples.map Clause.triple).map (Clause.mapTokens f) =
              (edges.triples.map (Triple.mapTokens f)).map .triple := by
            rw [List.map_map, List.map_map]
            rfl
          rw [List.map_append, List.map_append, h.filled f hf, hmap, he.filled f hf (hs f hf)] }

end LinkedData
