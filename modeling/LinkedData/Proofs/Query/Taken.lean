import LinkedData.Proofs.Query.Course
import LinkedData.Proofs.Query.Minted

/-!
# Minted variables are fresh

Whatever a computation does, it takes its variables from the supply of the group, each of them
once (`Takes`). There is one lemma for each way in which computations are put together, and so
compiling takes exactly the variables that the walk over the pattern tells.

The main statement is `Pattern.minted_fresh`, about any number of patterns that are compiled into
one group.
-/

namespace LinkedData

open Compiling

/-- Whatever comes of it, the computation makes variables that its group has not given away, each
of them once. If it succeeds, they are the ones that the taking tells. -/
def Takes {α : Type} (x : Compiling α) (t : Taking) : Prop :=
  ∀ g : Group, ∃ (history : Group.History) (made : List Variable) (r : Except Error α)
    (g' : Group), Performs x g history r g' ∧ history.minted g = made.map Variable.token ∧
      g.supply.Gives made g'.supply ∧ ∀ a, r = .ok a → t g.supply = (made, g'.supply)

section

variable {α β : Type} {x : Compiling α} {t : Taking}

theorem takes_pure (a : α) : Takes (pure a) .nothing := by
  intro g
  exact ⟨[], [], .ok a, g, .pure a g, rfl, .refl _, fun _ _ => rfl⟩

theorem takes_throw (e : Error) (t : Taking) : Takes (throw e : Compiling α) t := by
  intro g
  exact ⟨[], [], .error e, g, .throw e g, rfl, .refl _, nofun⟩

/-- A result that does not depend on the group. -/
theorem takes_lift (r : Except Error α) : Takes (lift r) .nothing := by
  cases r with
  | ok a => exact takes_pure a
  | error e => exact takes_throw e _

/-- What comes first takes its variables first. What comes then can depend on the number that was
the next one at the beginning. -/
theorem Takes.bind {f : α → Compiling β} {u : Nat → Taking} (hx : Takes x t)
    (hf : ∀ g a g', Yields x g a g' → Takes (f a) (u g.nodeCounter)) :
    Takes (x >>= f) (t.andThen u) := by
  intro g
  obtain ⟨first, made, r, g', hx, hmade, hgives, hok⟩ := hx g
  cases r with
  | error e => exact ⟨first, made, .error e, g', .fail hx, hmade, hgives, nofun⟩
  | ok a =>
    obtain ⟨second, more, r, g'', hf, hmore, hgives', hok'⟩ := hf g a g' hx.run g'
    refine ⟨first ++ second, made ++ more, r, g'', .bind hx hf, ?_, hgives.trans hgives', ?_⟩
    · rw [Group.History.minted_append, ← hx.group, hmade, hmore, List.map_append]
    · intro b hb
      have hnext : u g.supply.next g'.supply = (more, g''.supply) := hok' b hb
      rw [Taking.andThen, hok a rfl]
      simp [hnext]

/-- The result alone is used. -/
theorem Takes.map {f : α → Compiling β} (hx : Takes x t) (hf : ∀ a, Takes (f a) .nothing) :
    Takes (x >>= f) t := by
  rw [← t.andThen_nothing]
  exact hx.bind fun _ a _ _ => hf a

/-- What takes nothing comes first. -/
theorem Takes.after {f : α → Compiling β} (hx : Takes x .nothing) (hf : ∀ a, Takes (f a) t) :
    Takes (x >>= f) t := by
  rw [← t.nothing_andThen]
  exact hx.bind fun _ a _ _ => hf a

end

/-! ## Operations -/

namespace Group

/-- An operation that makes no variable and uses no number. -/
theorem takes_change (op : Operation) (hminted : ∀ g, op.minted g = [])
    (hsupply : ∀ g, (op.apply g).supply = g.supply) : Takes (change op.apply) .nothing := by
  intro g
  refine ⟨[op], [], .ok (), op.apply g, .change op g, ?_, ?_, ?_⟩
  · rw [History.minted, hminted]
    rfl
  · rw [hsupply]
    exact .refl _
  · intro _ _
    rw [hsupply]
    rfl

theorem takes_append (clauses : List Clause) : Takes (change (·.append clauses)) .nothing := by
  refine takes_change (.append clauses) (fun _ => rfl) fun g => ?_
  rw [Operation.apply, append]
  split <;> rfl

theorem takes_enterOptional : Takes (change enterOptional) .nothing :=
  takes_change .enterOptional (fun _ => rfl) fun _ => rfl

theorem takes_exitOptional : Takes (change exitOptional) .nothing := by
  refine takes_change .exitOptional (fun _ => rfl) fun g => ?_
  rw [Operation.apply, exitOptional]
  split <;> rfl

theorem takes_demote (node : Nat) (parent : String) :
    Takes (change (·.demote node parent)) .nothing := by
  refine takes_change (.demote node parent) (fun _ => rfl) fun g => ?_
  rw [Operation.apply, demote]
  split <;> rfl

theorem takes_namedVariable (name : String) : Takes (step (·.namedVariable name)) .nothing := by
  intro g
  exact ⟨_, [], _, _, .namedVariable name g, rfl, .refl _, fun _ _ => rfl⟩

theorem takes_anonymousVariable : Takes (step anonymousVariable) .wildcard := by
  intro g
  exact ⟨_, [.wildcard g.nodeCounter], _, _, .anonymousVariable g, rfl, g.supply.gives_wildcard,
    fun _ _ => rfl⟩

theorem supply_freshFilterVariable (g : Group) (node : Nat) :
    (g.freshFilterVariable node).2.supply = g.supply.filtered node := by
  have hfilters : (g.freshFilterVariable node).2.supply.filters =
      (g.supply.filtered node).filters := by
    funext other
    by_cases h : other = node
    · subst h
      simp [freshFilterVariable, supply, Supply.filtered, lookupNumber?_setNumber]
    · simp [freshFilterVariable, supply, Supply.filtered, h, lookupNumber?_setNumber_of_ne]
  exact congrArg (Supply.mk g.nodeCounter) hfilters

theorem takes_freshFilterVariable (node : Nat) :
    Takes (step (·.freshFilterVariable node)) (.filter node) := by
  intro g
  refine ⟨_, [.filter node (g.supply.filters node)], _, _, .freshFilterVariable node g, rfl, ?_, ?_⟩
  · rw [supply_freshFilterVariable]
    exact g.supply.gives_filtered node
  · intro _ _
    rw [supply_freshFilterVariable]
    rfl

end Group

namespace Pattern

/-! ## Nodes -/

theorem takes_wildcardToken (name : String) : Takes (wildcardToken (some name)) .nothing := by
  rw [wildcardToken]
  split
  · exact Group.takes_namedVariable name
  · exact takes_throw _ _

theorem takes_subjectToken (codec : Codec) (id : Option Value) :
    Takes (subjectToken codec id) .nothing := by
  rw [subjectToken.eq_def]
  split
  case h_1 | h_2 => exact takes_pure _
  case h_3 name => exact (takes_wildcardToken name).map fun _ => takes_pure _
  case h_4 s =>
    split
    · exact takes_pure _
    · exact takes_throw _ _
  case h_5 | h_6 => exact (takes_lift _).map fun _ => takes_pure _
  case h_7 => exact takes_throw _ _

/-- The registration of a node makes its variables. -/
theorem minted_registerNode (g : Group) (id : Option String) (node : Nat) (inverse : Bool) :
    Group.History.minted g [.registerNode id node inverse] =
      (Variable.ofNode id.isSome node).map Variable.token := by
  cases id <;> rfl

/-- A node that begins takes a number for its variables. The number is taken first; if the
identifier is refused then, it is used for nothing. -/
theorem takes_openNode (codec : Codec) (entries : Node) (inverse : Bool) :
    Takes (openNode codec entries inverse)
      (.node (identifierToken? (identifier? entries)).isSome) := by
  intro g
  obtain ⟨history, made, r, g', hid, hmade, hgives, hok⟩ :=
    takes_subjectToken codec (identifier? entries) g.nextNodeId.2
  have hstart := Performs.nextNodeId g
  have htaken : g.nextNodeId.2.supply = g.supply.taken := rfl
  rw [htaken] at hgives hok
  cases r with
  | error e =>
    refine ⟨[.nextNodeId] ++ history, made, .error e, g', .bind hstart (.fail hid), ?_,
      g.supply.gives_taken.trans hgives, nofun⟩
    rw [Group.History.minted_append]
    exact hmade
  | ok id =>
    obtain ⟨rfl, hsupply⟩ := Prod.mk.inj (hok id rfl)
    obtain ⟨rfl, -⟩ := subjectToken_spec hid.run
    -- the registration makes the variables, but their number was taken before
    have hregister := Performs.registerNode (identifierToken? (identifier? entries))
      g.nodeCounter inverse g'
    refine ⟨[.nextNodeId] ++ (history ++ ([.registerNode _ _ _] ++ [])),
      Variable.ofNode (identifierToken? (identifier? entries)).isSome g.nodeCounter, _, _,
      .bind hstart (.bind hid (.bind hregister (.pure _ _))), ?_, ?_, fun _ _ => ?_⟩
    · have hidentifier : Group.History.minted (g.run [.nextNodeId]) history = [] := hmade
      rw [Group.History.minted_append, Group.History.minted_append, hidentifier]
      exact minted_registerNode _ _ _ _
    · have hend : (g'.registerNode (identifierToken? (identifier? entries)) g.nodeCounter
          inverse).2.supply = g.supply.taken := hsupply.symm
      rw [hend]
      exact g.supply.gives_ofNode _
    · exact congrArg (Prod.mk _) hsupply

theorem takes_compileFilter (check : RegexCheck) (codec : Codec) (entries : Node) (node : Nat) :
    Takes (compileFilter check codec entries node) (.filter node) := by
  refine (takes_lift _).after fun filter =>
    (Group.takes_freshFilterVariable node).map fun token => ?_
  exact (takes_lift _).map fun body => takes_pure _

theorem takes_closeNode (vars : NodeVariables) (edges : Edges) :
    Takes (closeNode vars edges) .nothing :=
  Group.takes_append _

/-- What an entry takes, if its value is compiled as an edge or as optional branches. -/
theorem takes_compileKey {check : RegexCheck} {codec : Codec} {outer : Nat} {subject : String}
    {value : Value} {t : Taking}
    (hproperty : ∀ direction, Takes (compileProperty check codec outer subject direction value) t)
    (hoptional : Takes (compileOptional check codec subject value) t) (key : String)
    (kind : PatternKey) :
    Takes (compileKey check codec outer subject key value kind) (kind.minted t) := by
  cases kind with
  | id => exact takes_pure _
  | operator op => exact takes_throw _ _
  | optional => exact hoptional.map fun _ => takes_pure _
  | inverse name =>
    exact ((takes_lift _).map fun _ => takes_pure _).after hproperty
  | property predicate => exact (takes_pure _).after hproperty
  | wildcard name? =>
    cases name? with
    | none =>
      have hx := Group.takes_anonymousVariable.map fun token =>
        takes_pure (Direction.mk token false)
      exact hx.bind (u := fun _ => t) fun _ direction _ _ => hproperty direction
    | some name => exact ((takes_wildcardToken name).map fun _ => takes_pure _).after hproperty

/-! ## The walk -/

mutual

theorem takes_compileObject (check : RegexCheck) (codec : Codec) (inverse : Bool) : ∀ (v : Value)
    (outer : Nat),
    Takes (compileObject check codec outer inverse v) (minted outer v)
  | v, outer => by
    rcases v.node_or_list_or_wildcard_or_scalar with
      ⟨entries, rfl⟩ | ⟨items, rfl⟩ | ⟨name?, rfl⟩ | hscalar
    · rcases hfilter : Filter.isFilter entries with _ | _
      · rw [compileObject_node check codec outer inverse hfilter, minted, hfilter,
          if_neg Bool.false_ne_true]
        exact (takes_compileNode check codec inverse entries).map fun _ => takes_pure _
      · rw [compileObject_filter check codec outer inverse hfilter, minted, hfilter, if_pos rfl]
        exact (takes_compileFilter check codec entries outer).map fun _ => takes_pure _
    · rw [compileObject]
      exact takes_throw _ _
    · rw [compileObject]
      cases name? with
      | none => exact Group.takes_anonymousVariable.map fun _ => takes_pure _
      | some name => exact (takes_wildcardToken name).map fun _ => takes_pure _
    · rw [compileObject_scalar check codec outer inverse hscalar, minted_scalar outer hscalar]
      exact (takes_lift _).map fun _ => takes_pure _
termination_by v => (sizeOf v, 0)

theorem takes_compileNode (check : RegexCheck) (codec : Codec) (inverse : Bool) :
    ∀ entries : List (String × Value), Takes (compileNode check codec entries inverse)
      ((Taking.node (identifierToken? (identifier? entries)).isSome).andThen fun node =>
        mintedEntries node entries)
  | entries => by
    refine (takes_openNode codec entries inverse).bind fun g opened g' hopened => ?_
    obtain ⟨node, vars⟩ := opened
    obtain ⟨rfl, -, -⟩ := opened_of_yields hopened
    refine (takes_compileEntries check codec vars.subject entries g.nodeCounter).map fun edges => ?_
    exact (takes_closeNode vars edges).map fun _ => takes_pure _
termination_by entries => (sizeOf entries, 1)

theorem takes_compileObjects (check : RegexCheck) (codec : Codec) (subject : String)
    (direction : Direction) :
    ∀ (items : List Value) (outer : Nat),
      Takes (compileObjects check codec outer subject direction items) (mintedItems outer items)
  | [], outer => takes_pure _
  | item :: rest, outer => by
    rw [compileObjects, mintedItems]
    refine (takes_compileObject check codec direction.inverse item outer).bind fun _ _ _ _ => ?_
    exact (takes_compileObjects check codec subject direction rest outer).map fun _ => takes_pure _
termination_by items => (sizeOf items, 0)

theorem takes_compileProperty (check : RegexCheck) (codec : Codec) (subject : String)
    (direction : Direction) :
    ∀ (v : Value) (outer : Nat),
      Takes (compileProperty check codec outer subject direction v) (minted outer v)
  | v, outer => by
    rw [compileProperty.eq_def]
    split
    · rw [minted]
      exact takes_compileObjects check codec subject direction _ outer
    · exact (takes_compileObject check codec direction.inverse v outer).map fun _ => takes_pure _
termination_by v => (sizeOf v, 1)

theorem takes_compileBranch (check : RegexCheck) (codec : Codec) (subject : String) : ∀ (v : Value)
    (outer : Nat),
    Takes (compileBranch check codec subject v) (minted outer v)
  | v, outer => by
    rcases v.node_or_not with ⟨entries, rfl⟩ | hnode
    · rcases hfilter : Filter.isFilter entries with _ | _
      · rw [compileBranch_node check codec subject hfilter, minted, hfilter,
          if_neg Bool.false_ne_true]
        refine Group.takes_enterOptional.after fun _ => ?_
        refine (takes_compileNode check codec false entries).map fun compiled => ?_
        exact (Group.takes_demote compiled.node subject).map fun _ => Group.takes_exitOptional
      · rw [compileBranch_filter check codec subject hfilter]
        exact takes_throw _ _
    · rw [compileBranch_other check codec subject hnode]
      exact takes_throw _ _
termination_by v => (sizeOf v, 0)

theorem takes_compileBranches (check : RegexCheck) (codec : Codec) (subject : String) :
    ∀ (branches : List Value) (outer : Nat),
      Takes (compileBranches check codec subject branches) (mintedItems outer branches)
  | [], outer => takes_pure _
  | branch :: rest, outer => by
    rw [compileBranches, mintedItems]
    refine (takes_compileBranch check codec subject branch outer).bind fun _ _ _ _ => ?_
    exact takes_compileBranches check codec subject rest outer
termination_by branches => (sizeOf branches, 0)

theorem takes_compileOptional (check : RegexCheck) (codec : Codec) (subject : String) : ∀
    (v : Value) (outer : Nat),
    Takes (compileOptional check codec subject v) (minted outer v)
  | v, outer => by
    rw [compileOptional.eq_def]
    split
    · rw [minted]
      exact takes_compileBranches check codec subject _ outer
    · exact takes_compileBranch check codec subject v outer
termination_by v => (sizeOf v, 1)

theorem takes_compileEntries (check : RegexCheck) (codec : Codec) (subject : String) :
    ∀ (entries : List (String × Value)) (outer : Nat),
      Takes (compileEntries check codec outer subject entries) (mintedEntries outer entries)
  | [], outer => takes_pure _
  | (key, value) :: rest, outer => by
    have hentry : Takes (compileEntry check codec outer subject key value)
        (match PatternKey.resolve key with
          | .ok kind => kind.minted (minted outer value)
          | .error _ => .nothing) := by
      rw [compileEntry]
      rcases PatternKey.resolve key with e | kind
      · exact takes_throw _ _
      · exact takes_compileKey
          (fun direction => takes_compileProperty check codec subject direction value outer)
          (takes_compileOptional check codec subject value outer) key kind
    rw [compileEntries_cons, mintedEntries]
    refine hentry.bind fun _ here _ _ => ?_
    exact (takes_compileEntries check codec subject rest outer).map fun _ => takes_pure _
termination_by entries => (sizeOf entries, 0)

end

theorem takes_compileInto (check : RegexCheck) (codec : Codec) (pattern : Node) :
    Takes (compileInto check codec pattern) (minted 0 (.node pattern)) := by
  rcases hfilter : Filter.isFilter pattern with _ | _
  · rw [compileInto_eq check codec hfilter, minted, hfilter, if_neg Bool.false_ne_true]
    exact takes_compileNode check codec false pattern
  · rw [compileInto, hfilter]
    exact takes_throw _ _

/-! ## Several patterns -/

/-- Compile patterns into one group, one after the other and whatever comes of them. -/
def compileEach (check : RegexCheck) (codec : Codec) : List Node → Compiling
    (List (Except Error CompiledNode))
  | [] => return []
  | pattern :: rest => do
    let result ← attempt (compileInto check codec pattern)
    let results ← compileEach check codec rest
    return result :: results

/-- What is made for one pattern is used up when the next one is compiled. -/
theorem gives_compileEach (check : RegexCheck) (codec : Codec) (patterns : List Node) (g : Group) :
    ∃ (history : Group.History) (made : List Variable)
      (results : List (Except Error CompiledNode)) (g' : Group),
      Performs (compileEach check codec patterns) g history (.ok results) g' ∧
      history.minted g = made.map Variable.token ∧ g.supply.Gives made g'.supply ∧
      ((∀ r ∈ results, r.isOk = true) → mintedEach patterns g.supply = (made, g'.supply)) := by
  induction patterns generalizing g with
  | nil => exact ⟨[], [], [], g, .pure [] g, rfl, .refl _, fun _ => rfl⟩
  | cons pattern rest ih =>
    obtain ⟨first, made, r, g', hfirst, hmade, hgives, hok⟩ :=
      takes_compileInto check codec pattern g
    obtain ⟨second, more, results, g'', hsecond, hmore, hgives', hok'⟩ := ih g'
    refine ⟨first ++ (second ++ []), made ++ more, r :: results, g'',
      .bind (.attempt hfirst) (.bind hsecond (.pure _ _)), ?_, hgives.trans hgives', fun hall => ?_⟩
    · rw [List.append_nil, Group.History.minted_append, ← hfirst.group, hmade, hmore,
        List.map_append]
    · -- with this pattern, every pattern behind it has to compile
      rw [List.forall_mem_cons] at hall
      obtain ⟨compiled, rfl⟩ : ∃ compiled, r = .ok compiled := by
        cases r with
        | ok compiled => exact ⟨compiled, rfl⟩
        | error e => cases hall.1
      rw [mintedEach, Taking.andThen, hok compiled rfl]
      simp [hok' hall.2]

/-- **Minted variables are fresh.** When patterns are compiled into a group that was empty at
first, one after the other and whatever comes of them, no variable is made twice: all variables
that are made for nodes, for wildcards without a name, and for filters are written differently.
If every pattern compiles, they are the ones that the walk over the patterns tells. -/
theorem minted_fresh (check : RegexCheck) (codec : Codec) (patterns : List Node) :
    ∃ (history : Group.History) (results : List (Except Error CompiledNode)) (g : Group),
      Performs (compileEach check codec patterns) .empty history (.ok results) g ∧
      (history.minted .empty).Nodup ∧
      ((∀ r ∈ results, r.isOk = true) →
        history.minted .empty = (variablesOf patterns).map Variable.token) := by
  obtain ⟨history, made, results, g, hperforms, hminted, hgives, hok⟩ :=
    gives_compileEach check codec patterns .empty
  refine ⟨history, results, g, hperforms, ?_, fun hall => ?_⟩
  · rw [hminted]
    exact List.Nodup.map Variable.token_injective hgives.nodup
  · have hmade : mintedEach patterns ⟨0, fun _ => 0⟩ = (made, g.supply) := hok hall
    rw [hminted, variablesOf, hmade]

end Pattern

end LinkedData
