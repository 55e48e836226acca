import LinkedData.Proofs.Query.Course

/-!
# What is described begins or ends a triple

A node is described from the moment that it is registered, but its triples are there only when it
ends. Meanwhile other nodes are compiled, which may have the same subject, and optional branches
are demoted, which takes a subject out of the projection and out of the clauses that are held
back. So what is described is accounted for by the clauses together with the subjects of the
nodes that have not ended yet (`Group.Accounts`). When all patterns are compiled, no node is left
that has not ended (`Pattern.projected_ends`).
-/

namespace LinkedData

namespace Group

/-- All clauses of the group, wherever they stand. -/
def clauses (g : Group) : List Clause :=
  g.required ++ (g.optionalBlocks.flatten ++ g.optionalBuffer)

/-- The token is what a triple of the group begins or ends with. -/
def Shows (g : Group) (token : String) : Prop :=
  ∃ t, .triple t ∈ g.clauses ∧ token ∈ t.ends

/-- Whatever the group describes begins or ends one of its triples, or is the subject of a node
that has not ended yet. -/
def Accounts (g : Group) (pending : List String) : Prop :=
  ∀ token ∈ g.projection, token ∈ pending ∨ g.Shows token

variable {g g' : Group} {pending : List String}

/-! ## Clauses -/

theorem mem_clauses_append {c : Clause} {more : List Clause} :
    c ∈ (g.append more).clauses ↔ c ∈ g.clauses ∨ c ∈ more := by
  rw [append]
  split <;> simp only [clauses, List.mem_append] <;> tauto

theorem clauses_exitOptional : g.exitOptional.clauses = g.clauses := by
  rw [exitOptional]
  split
  · simp [clauses]
  · rfl

/-- A branch that is handed over leaves every token but its subject where it is. -/
theorem Shows.handedOver {token subject : String} (h : g.Shows token) (hne : token ≠ subject)
    (node : Nat) (parent : String) : (g.handedOver node subject parent).Shows token := by
  obtain ⟨t, ht, hends⟩ := h
  have hkept : token ∈ (t.substitute subject parent).ends := by
    rcases Triple.mem_ends.1 hends with rfl | rfl
    · exact Triple.mem_ends.2 (.inl (if_neg hne).symm)
    · exact Triple.mem_ends.2 (.inr (if_neg hne).symm)
  rcases List.mem_append.1 ht with ht | ht
  · exact ⟨t, List.mem_append_left _ ht, hends⟩
  · rcases List.mem_append.1 ht with ht | ht
    · exact ⟨t, List.mem_append_right _ (List.mem_append_left _ ht), hends⟩
    · have hheld := List.mem_map_of_mem (f := Clause.substitute subject parent) ht
      exact ⟨_, List.mem_append_right _ (List.mem_append_right _ hheld), hkept⟩

/-! ## What the steps keep -/

namespace Accounts

theorem mints (h : g.Accounts pending) (hmints : g.Mints g') : g'.Accounts pending := by
  obtain ⟨_, _, _, rfl⟩ := hmints
  exact h

/-- A node that begins is described at most, and has not ended. -/
theorem opened (h : g.Accounts pending) (entries : Node) (inverse : Bool) :
    (g.opened entries inverse).Accounts (subjectOf g.nodeCounter entries :: pending) := by
  intro token ht
  rcases mem_opened_projection ht with rfl | ht
  · exact .inl List.mem_cons_self
  · exact (h token ht).imp_left (List.mem_cons_of_mem _)

/-- A node that ends with a triple of its own is accounted for by that. -/
theorem closed {subject : String} {t : Triple} {more : List Clause}
    (h : g.Accounts (subject :: pending)) (ht : .triple t ∈ more) (hends : subject ∈ t.ends) :
    (g.append more).Accounts pending := by
  intro token htoken
  rw [append_projection] at htoken
  rcases h token htoken with hpending | ⟨t', ht', hends'⟩
  · rcases List.mem_cons.1 hpending with rfl | hpending
    · exact .inr ⟨t, mem_clauses_append.2 (.inr ht), hends⟩
    · exact .inl hpending
  · exact .inr ⟨t', mem_clauses_append.2 (.inl ht'), hends'⟩

/-- What a branch replaces is not described any more. -/
theorem demote (h : g.Accounts pending) (node : Nat) (parent : String) :
    (g.demote node parent).Accounts pending := by
  rcases hlookup : lookupNumber? node g.nodes with _ | subject
  · rwa [Group.demote, hlookup]
  · rw [demote_eq_handedOver hlookup]
    intro token htoken
    obtain ⟨htoken, hne⟩ := List.mem_filter.1 htoken
    exact (h token htoken).imp_right fun hshows =>
      hshows.handedOver (bne_iff_ne.1 hne) node parent

theorem exitOptional (h : g.Accounts pending) : g.exitOptional.Accounts pending := by
  intro token htoken
  rw [exitOptional_projection] at htoken
  rw [Shows, clauses_exitOptional]
  exact h token htoken

end Accounts

end Group

namespace Pattern

/-- Whatever is compiled, what is described stays accounted for. The induction leaves the nodes
that have not ended open, because a node compiles its entries with one more of them. -/
theorem Compiles.accounts {check : RegexCheck} {codec : Codec} {task : Task} {g g' : Group}
    {r : task.Outcome} (h : Compiles check codec task g r g') (pending : List String)
    (hg : g.Accounts pending) :
    g'.Accounts pending := by
  induction h generalizing pending with
  | node opened inner closed ih =>
    obtain ⟨rfl, rfl, rfl⟩ := opened_of_yields opened
    obtain ⟨clauses, rfl, t, ht, hends⟩ := closes_about inner.about closed
    -- the node is open while its entries are compiled, and the triple is there when it ends
    exact (ih _ (hg.opened _ _)).closed ht hends
  | nested _ _ ih | list _ ih | single _ _ ih | several _ ih | one _ _ ih | identifier _ _ ih =>
    exact ih pending hg
  | filter hfilter run => exact hg.mints (mints_compileFilter run)
  | wildcard run => exact hg.mints (mints_wildcardToken run)
  | scalar _ _ | noItems | noBranches | noEntries => exact hg
  | items _ _ ih₁ ih₂ | branches _ _ ih₁ ih₂ | optional _ _ _ ih₁ ih₂ =>
    exact ih₂ pending (ih₁ pending hg)
  | branch hfilter inner ih => exact ((ih pending hg).demote _ _).exitOptional
  | edge hkey hx turned first others ih₁ ih₂ =>
    exact ih₂ pending (ih₁ pending (hg.mints (mints_direction hx turned)))

/-! ## Several patterns -/

/-- No branch is open, nothing is held back, and what is described begins or ends a triple. -/
structure Complete (g : Group) : Prop where
  /-- no branch is open -/
  depth : g.optionalDepth = 0
  /-- nothing is held back -/
  buffer : g.optionalBuffer = []
  /-- all nodes have ended -/
  accounts : g.Accounts []

theorem complete_empty : Complete .empty :=
  ⟨rfl, rfl, nofun⟩

theorem Complete.compileInto {check : RegexCheck} {codec : Codec} {pattern : Node}
    {compiled : CompiledNode} {g g' : Group} (hg : Complete g)
    (h : Yields (compileInto check codec pattern) g compiled g') :
    Complete g' := by
  obtain ⟨-, hnode⟩ := compiles_of_compileInto h
  have hcourse := course_of_compileInto h
  exact ⟨hcourse.depth.trans hg.depth, hcourse.buffer hg.depth hg.buffer,
    hnode.accounts [] hg.accounts⟩

theorem Complete.mapM {check : RegexCheck} {codec : Codec} {patterns : List Node}
    {compiled : List CompiledNode} {g g' : Group} (hg : Complete g)
    (h : Yields (patterns.mapM (Pattern.compileInto check codec)) g compiled g') : Complete g' := by
  induction patterns generalizing g compiled with
  | nil =>
    obtain ⟨-, rfl⟩ := Yields.pure_iff.1 h
    exact hg
  | cons pattern rest ih =>
    rw [List.mapM_cons] at h
    obtain ⟨first, g₁, hfirst, h⟩ := Yields.bind_iff.1 h
    obtain ⟨others, g₂, hothers, h⟩ := Yields.bind_iff.1 h
    obtain ⟨-, rfl⟩ := Yields.pure_iff.1 h
    exact ih (hg.compileInto hfirst) hothers

/-- **What is described begins or ends a triple.** When patterns are compiled into one group, one
after the other, every token that is left in the projection is the subject or the object of a
triple, which must match or stands in a block. It does not matter which identifiers and which
variables the patterns share. -/
theorem projected_ends {check : RegexCheck} {codec : Codec} {patterns : List Node}
    {compiled : List CompiledNode} {g : Group}
    (h : Yields (patterns.mapM (compileInto check codec)) .empty compiled g)
    {token : String} (htoken : token ∈ g.projection) :
    ∃ t : Triple, (.triple t ∈ g.required ∨ ∃ block ∈ g.optionalBlocks, .triple t ∈ block) ∧
      (token = t.subject ∨ token = t.object) := by
  have hcomplete := complete_empty.mapM h
  obtain ⟨t, ht, hends⟩ := (hcomplete.accounts token htoken).resolve_left List.not_mem_nil
  rw [Group.clauses, hcomplete.buffer, List.append_nil] at ht
  exact ⟨t, (List.mem_append.1 ht).imp_right List.mem_flatten.1, Triple.mem_ends.1 hends⟩

/-- Patterns that share an identifier and a variable, which stand for nodes as well as for
branches. -/
def sharingPatterns : List Node :=
  [[("@id", .wildcard (some "who")), ("knows", .node [("@id", .string "alice"),
      ("$optional", .node [("@id", .wildcard (some "who")), ("name", .wildcard (some "n"))])])],
    [("likes", .wildcard (some "who")), ("$optional", .node [("@id", .string "alice")])],
    [("@id", .string "alice"), ("$inv_knows", .node [("@id", .wildcard (some "who"))])]]

theorem projected_ends_sharing :
    ∃ compiled g, Yields (sharingPatterns.mapM (compileInto .lenient .empty)) .empty compiled g ∧
      "<http://grel.org/ids/id/alice>" ∈ g.projection ∧
      ∃ t : Triple, (.triple t ∈ g.required ∨ ∃ block ∈ g.optionalBlocks, .triple t ∈ block) ∧
        ("<http://grel.org/ids/id/alice>" = t.subject ∨
          "<http://grel.org/ids/id/alice>" = t.object) := by
  obtain ⟨compiled, g, hrun, htoken⟩ := Yields.exists_of_run
    (x := sharingPatterns.mapM (compileInto .lenient .empty)) (s := .empty)
    (p := fun g => "<http://grel.org/ids/id/alice>" ∈ g.projection) (by decide +kernel)
  exact ⟨compiled, g, hrun, htoken, projected_ends hrun htoken⟩

end Pattern

end LinkedData
