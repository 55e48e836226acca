import LinkedData.Proofs.Query.Taken
import LinkedData.Proofs.Query.Header

/-!
# Filter variables

A filter variable carries the number of its node and a number of its own, and no other token that
compiling makes is written like one, unless the caller named it (`Group.Plain`). Both numbers are
given away once: whatever is compiled, the counters only grow, and so do the named variables
(`Pattern.Compiles.grows`).
-/

namespace LinkedData

/-! ## Tokens that are no filter variables -/

/-- The token is no filter variable. -/
def NoFilter (token : String) : Prop :=
  ∀ node number, token ≠ Group.filterVariable node number

theorem noFilter_of_not_isVariable {token : String} (h : isVariable token = false) :
    NoFilter token := by
  rintro node number rfl
  have hvariable : isVariable (Group.filterVariable node number) = true :=
    isVariable_iff.2 (congrArg List.head? (Variable.filter node number).toList_token)
  rw [hvariable] at h
  cases h

theorem filterVariable_injective {m n k l : Nat}
    (h : Group.filterVariable m k = Group.filterVariable n l) : m = n ∧ k = l := by
  have hv : Variable.filter m k = Variable.filter n l := Variable.token_injective h
  exact Variable.filter.inj hv

/-- A variable of another family is no filter variable. -/
theorem noFilter_of_token {token : String} {v : Variable} (hv : token = v.token)
    (h : ∀ node number, v ≠ .filter node number) : NoFilter token := by
  rintro node number rfl
  exact h node number (Variable.token_injective hv.symm)

theorem noFilter_subjectVariable (node : Nat) : NoFilter (Group.subjectVariable node) :=
  noFilter_of_token (v := .subject node) rfl nofun

theorem noFilter_predicateVariable (node : Nat) : NoFilter (Group.predicateVariable node) :=
  noFilter_of_token (v := .predicate node) rfl nofun

theorem noFilter_objectVariable (node : Nat) : NoFilter (Group.objectVariable node) :=
  noFilter_of_token (v := .object node) rfl nofun

theorem noFilter_wildcardVariable (number : Nat) : NoFilter (Group.wildcardVariable number) :=
  noFilter_of_token (v := .wildcard number) rfl nofun

/-- Replacing one such token by another one changes no filter variable, and makes none. -/
theorem NoFilter.replaceToken_eq_iff {old new : String} (hold : NoFilter old) (hnew : NoFilter new)
    (token : String) (node number : Nat) :
    Triple.replaceToken old new token = Group.filterVariable node number ↔
      token = Group.filterVariable node number := by
  rw [Triple.replaceToken]
  split
  · rename_i heq
    subst heq
    exact ⟨fun h => absurd h (hnew node number), fun h => absurd h (hold node number)⟩
  · exact Iff.rfl

/-! ## What only grows -/

namespace Group

/-- The counters and the named variables of the first group have grown to those of the second. -/
structure Grows (g g' : Group) : Prop where
  /-- numbers of nodes and of wildcards -/
  counter : g.nodeCounter ≤ g'.nodeCounter
  /-- numbers of filters -/
  filters : ∀ node, g.supply.filters node ≤ g'.supply.filters node
  /-- named variables -/
  names : g.tupleVariables ⊆ g'.tupleVariables

/-- The caller has not named a filter variable. -/
def Plain (g : Group) : Prop :=
  ∀ token ∈ g.tupleVariables, NoFilter token

variable {g g' g'' : Group}

theorem Grows.refl (g : Group) : g.Grows g :=
  ⟨Nat.le_refl _, fun _ => Nat.le_refl _, fun _ h => h⟩

/-- What stays as it is has grown enough. -/
theorem Grows.of_eq (hcounter : g'.nodeCounter = g.nodeCounter)
    (hfilters : g'.filterCounters = g.filterCounters)
    (hnames : g'.tupleVariables = g.tupleVariables) : g.Grows g' where
  counter := hcounter.ge
  filters := fun node => by rw [supply, supply, hfilters]
  names := fun _ ht => hnames ▸ ht

theorem Grows.trans (h : g.Grows g') (h' : g'.Grows g'') : g.Grows g'' where
  counter := h.counter.trans h'.counter
  filters := fun node => (h.filters node).trans (h'.filters node)
  names := fun _ ht => h'.names (h.names ht)

theorem Grows.plain (h : g.Grows g') (hg : g'.Plain) : g.Plain :=
  fun token ht => hg token (h.names ht)

theorem grows_freshFilterVariable (g : Group) (node : Nat) :
    g.Grows (g.freshFilterVariable node).2 where
  counter := Nat.le_refl _
  filters := fun other => by
    rw [supply_freshFilterVariable]
    by_cases h : other = node
    · subst h
      simp [Supply.filtered]
    · simp [Supply.filtered, h]
  names := fun _ ht => ht

theorem grows_opened (g : Group) (entries : Node) (inverse : Bool) :
    g.Grows (g.opened entries inverse) :=
  ⟨Nat.le_succ _, fun _ => Nat.le_refl _, fun _ ht => Query.mem_merge.2 (.inl ht)⟩

theorem grows_append (g : Group) (clauses : List Clause) : g.Grows (g.append clauses) := by
  rw [append]
  split <;> exact .of_eq rfl rfl rfl

theorem grows_exitOptional (g : Group) : g.Grows g.exitOptional := by
  rw [exitOptional]
  split <;> exact .of_eq rfl rfl rfl

theorem grows_demote (g : Group) (node : Nat) (parent : String) :
    g.Grows (g.demote node parent) := by
  rw [demote]
  split <;> exact .of_eq rfl rfl rfl

end Group

namespace Pattern

theorem grows_wildcardToken {name? : Option String} {g g' : Group} {token : String}
    (h : Yields (wildcardToken name?) g token g') : g.Grows g' := by
  cases makes_of_wildcardToken h with
  | anonymous => exact ⟨Nat.le_succ _, fun _ => Nat.le_refl _, fun _ ht => ht⟩
  | named _ => exact ⟨Nat.le_refl _, fun _ => Nat.le_refl _, fun _ ht => mem_insertNew.2 (.inr ht)⟩

theorem grows_direction {kind : PatternKey} {x : Compiling Direction} {d : Direction}
    {g g' : Group} (hx : direction? kind = some x) (h : Yields x g d g') : g.Grows g' := by
  cases turns_of_direction hx h with
  | inverse _ | property => exact .refl _
  | wildcard made => exact grows_wildcardToken made

/-- Whatever is compiled, no number is given back, and no name is forgotten. -/
theorem Compiles.grows {check : RegexCheck} {codec : Codec} {task : Task} {g g' : Group}
    {r : task.Outcome} (h : Compiles check codec task g r g') : g.Grows g' := by
  induction h with
  | @node entries inverse node vars edges g g₁ g₂ g₃ opened inner closed ih =>
    obtain ⟨-, -, rfl⟩ := opened_of_yields opened
    obtain rfl := Yields.change_iff.1 closed
    exact (g.grows_opened entries inverse).trans (ih.trans (g₂.grows_append _))
  | filter hfilter run =>
    obtain ⟨f, body, -, -, -, rfl⟩ := compileFilter_spec run
    exact Group.grows_freshFilterVariable _ _
  | wildcard run => exact grows_wildcardToken run
  | scalar _ _ | noItems | noBranches | noEntries => exact .refl _
  | nested _ _ ih | list _ ih | single _ _ ih | several _ ih | one _ _ ih | identifier _ _ ih =>
    exact ih
  | items _ _ ih₁ ih₂ | branches _ _ ih₁ ih₂ | optional _ _ _ ih₁ ih₂ => exact ih₁.trans ih₂
  | @branch subject entries compiled g g' hfilter inner ih =>
    have henter : g.Grows g.enterOptional := .of_eq rfl rfl rfl
    have hdemote := g'.grows_demote compiled.node subject
    exact henter.trans (ih.trans (hdemote.trans (Group.grows_exitOptional _)))
  | edge hkey hx turned first others ih₁ ih₂ =>
    exact (grows_direction hx turned).trans (ih₁.trans ih₂)

/-! ## Tokens that compiling makes -/

theorem noFilter_wildcardToken {name? : Option String} {g g' : Group} {token : String}
    (h : Yields (wildcardToken name?) g token g') (hplain : g'.Plain) : NoFilter token := by
  cases makes_of_wildcardToken h with
  | anonymous => exact noFilter_wildcardVariable _
  | named _ => exact hplain _ (mem_insertNew.2 (.inl rfl))

theorem noFilter_direction {key : String} {kind : PatternKey} {x : Compiling Direction}
    {d : Direction} {g g' : Group} (hkey : PatternKey.resolve key = .ok kind)
    (hx : direction? kind = some x) (h : Yields x g d g') (hplain : g'.Plain) :
    NoFilter d.predicate := by
  cases turns_of_direction hx h with
  | inverse hterm => exact noFilter_of_not_isVariable (Literal.not_isVariable_encodeTerm hterm)
  | wildcard made => exact noFilter_wildcardToken made hplain
  | property =>
    have hterm := encodeTerm_of_resolve hkey
    exact noFilter_of_not_isVariable (Literal.not_isVariable_encodeTerm hterm)

theorem noFilter_subjectOf {g : Group} {entries : Node} {inverse : Bool}
    (hplain : (g.opened entries inverse).Plain) :
    NoFilter (subjectOf g.nodeCounter entries) := by
  rw [subjectOf]
  rcases hid : identifierToken? (identifier? entries) with _ | token
  · exact noFilter_subjectVariable _
  · rcases Named.cases hid with ⟨name, hname, rfl⟩ | ⟨locator, rfl⟩
    · refine hplain _ (Query.mem_merge.2 (.inr ?_))
      rw [hname]
      exact List.mem_singleton_self _
    · exact noFilter_of_not_isVariable (Literal.not_isVariable_bracketed locator)

end Pattern

end LinkedData
