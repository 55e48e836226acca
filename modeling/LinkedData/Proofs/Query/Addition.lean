import LinkedData.Proofs.Query.Branches
import LinkedData.Proofs.Query.Header

/-!
# One more optional branch

A branch that is listed behind all the others is compiled when the entries of the node are
through, right before the node's own clauses are added. Up to there the two runs, with the branch
and without it, are the same (`Compiles.of_withBranch`), and the branch itself only leaves a
block and names variables. So the longer pattern asks for no more than the shorter one
(`keeps_with_branch`).
-/

namespace LinkedData

/-- What is collected comes behind what was there before. -/
theorem prefix_insertNew (item : String) (items : List String) :
    items <+: insertNew item items := by
  rw [insertNew]
  split
  · exact List.prefix_rfl
  · exact List.prefix_append _ _

theorem Query.prefix_merge (items more : List String) : items <+: merge items more := by
  induction more generalizing items with
  | nil => exact List.prefix_rfl
  | cons item more ih => exact (prefix_insertNew item items).trans (ih (insertNew item items))

namespace Pattern

/-- The node with one more optional branch, behind the others. The optional key is the last one
of the node, if it has one. -/
def withBranch (branch : Value) : Node → Node
  | [] => [(PatternKey.optionalKey, .list [branch])]
  | (key, value) :: rest =>
    if key = PatternKey.optionalKey ∧ rest.isEmpty then
      [(key, .list (value.elements ++ [branch]))]
    else (key, value) :: withBranch branch rest

variable {check : RegexCheck} {codec : Codec} {branch : Value}

theorem get?_withBranch {name : String} (hname : name ≠ PatternKey.optionalKey)
    (entries : Node) : (withBranch branch entries).get? name = entries.get? name := by
  fun_induction withBranch branch entries with
  | case1 => exact if_neg hname.symm
  | case2 key value rest h =>
    obtain ⟨rfl, hrest⟩ := h
    obtain rfl := List.isEmpty_iff.1 hrest
    exact (if_neg hname.symm).trans (if_neg hname.symm).symm
  | case3 key value rest _ ih => rw [Fields.get?, Fields.get?, ih]

theorem openNode_withBranch (entries : Node) (inverse : Bool) :
    openNode codec (withBranch branch entries) inverse = openNode codec entries inverse := by
  rw [openNode, openNode, get?_withBranch (by decide)]

namespace Compiles

/-! ## The run without the branch -/

/-- The last one of several branches is compiled when the others are through. -/
theorem branches_concat {subject : String} {branches : List Value} {u : Unit} {g g' : Group}
    (h : Compiles check codec (.branches subject (branches ++ [branch])) g u g') :
    ∃ g₁, Compiles check codec (.branches subject branches) g () g₁ ∧
      Compiles check codec (.branch subject branch) g₁ () g' := by
  induction branches generalizing g with
  | nil =>
    cases h with
    | branches first others =>
      cases others
      exact ⟨g, .noBranches, first⟩
  | cons other rest ih =>
    cases h with
    | branches first others =>
      obtain ⟨g₁, hrest, hbranch⟩ := ih others
      exact ⟨g₁, .branches first hrest, hbranch⟩

/-- It does not matter whether a single branch stands in a list. -/
theorem options_of_elements {subject : String} {v : Value} {g g' : Group}
    (h : Compiles check codec (.branches subject v.elements) g () g') :
    Compiles check codec (.options subject v) g () g' := by
  rcases v.list_or_not with ⟨branches, rfl⟩ | hlist
  · exact .several h
  · rw [Value.elements_single hlist] at h
    cases h with
    | branches first others =>
      cases others
      exact .one hlist first

theorem options_concat {subject : String} {v : Value} {u : Unit} {g g' : Group}
    (h : Compiles check codec (.options subject (.list (v.elements ++ [branch]))) g u g') :
    ∃ g₁, Compiles check codec (.options subject v) g () g₁ ∧
      Compiles check codec (.branch subject branch) g₁ () g' := by
  cases h with
  | several inner =>
    obtain ⟨g₁, hothers, hbranch⟩ := inner.branches_concat
    exact ⟨g₁, options_of_elements hothers, hbranch⟩
  | one hlist _ => exact absurd rfl (hlist _)

/-- An optional key that comes last. -/
theorem options_of_last {node : Nat} {subject : String} {v : Value} {edges : Edges} {g g' : Group}
    (h : Compiles check codec (.entries node subject [(PatternKey.optionalKey, v)]) g edges g') :
    edges = Edges.none ∧ Compiles check codec (.options subject v) g () g' := by
  cases h with
  | identifier hkey _ => cases hkey
  | edge hkey hx _ _ _ =>
    cases hkey
    cases hx
  | optional _ first others =>
    cases others
    exact ⟨rfl, first⟩

/-- The entries of a node with one more branch are compiled like those of the node without it,
and with the same edges; the branch comes after them. -/
theorem entries_of_withBranch {node : Nat} {subject : String} {entries : Node} {edges : Edges}
    {g g' : Group}
    (h : Compiles check codec (.entries node subject (withBranch branch entries)) g edges g') :
    ∃ g₁, Compiles check codec (.entries node subject entries) g edges g₁ ∧
      Compiles check codec (.branch subject branch) g₁ () g' := by
  fun_induction withBranch branch entries generalizing g edges with
  | case1 =>
    obtain ⟨rfl, hoptions⟩ := h.options_of_last
    obtain ⟨g₁, hnone, hbranch⟩ := options_concat (v := .list []) hoptions
    cases hnone with
    | several inner =>
      cases inner
      exact ⟨g, .noEntries, hbranch⟩
    | one hlist _ => exact absurd rfl (hlist [])
  | case2 key value rest hlast =>
    obtain ⟨rfl, hrest⟩ := hlast
    obtain rfl := List.isEmpty_iff.1 hrest
    obtain ⟨rfl, hoptions⟩ := h.options_of_last
    obtain ⟨g₁, hothers, hbranch⟩ := options_concat hoptions
    exact ⟨g₁, .optional rfl hothers .noEntries, hbranch⟩
  | case3 key value rest _ ih =>
    cases h with
    | identifier hkey others =>
      obtain ⟨g₁, hrest, hbranch⟩ := ih others
      exact ⟨g₁, .identifier hkey hrest, hbranch⟩
    | optional hkey first others =>
      obtain ⟨g₁, hrest, hbranch⟩ := ih others
      exact ⟨g₁, .optional hkey first hrest, hbranch⟩
    | edge hkey hx turned first others =>
      obtain ⟨g₁, hrest, hbranch⟩ := ih others
      exact ⟨g₁, .edge hkey hx turned first hrest, hbranch⟩

/-- A node with one more branch is compiled like the node without it, but for the branch, which
is compiled right before the clauses of the node are added. -/
theorem of_withBranch {entries : Node} {inverse : Bool} {compiled : CompiledNode} {g g' : Group}
    (h : Compiles check codec (.node (withBranch branch entries) inverse) g compiled g') :
    ∃ g₁ g₂ clauses, Compiles check codec (.node entries inverse) g compiled (g₁.append clauses) ∧
      Compiles check codec (.branch compiled.subject branch) g₁ () g₂ ∧ g' = g₂.append clauses := by
  cases h with
  | node opened inner closed =>
    rw [openNode_withBranch] at opened
    obtain ⟨g₁, hentries, hbranch⟩ := inner.entries_of_withBranch
    exact ⟨g₁, _, _, .node opened hentries (Yields.change_iff.2 rfl), hbranch,
      Yields.change_iff.1 closed⟩

/-! ## What the branch leaves alone -/

/-- An outermost branch adds no clause that must match. -/
theorem branch_required {subject : String} {v : Value} {u : Unit} {g g' : Group}
    (h : Compiles check codec (.branch subject v) g u g') (hdepth : g.optionalDepth = 0) :
    g'.required = g.required := by
  cases h with
  | @branch _ entries compiled _ g' hfilter inner =>
    have hinner : g'.optionalDepth = 1 := by
      rw [inner.depth, Group.enterOptional, hdepth]
    obtain ⟨hrequired, -, -⟩ := Group.demote_frame g' compiled.node subject
    rw [Group.exitOptional_outermost ((Group.demote_optionalDepth _ _ _).trans hinner)]
    exact hrequired.trans (inner.balanced.required (Nat.succ_pos _))

/-- A branch names its variables behind those that are named already. -/
theorem branch_tupleVariables {subject : String} {v : Value} {u : Unit} {g g' : Group}
    (h : Compiles check codec (.branch subject v) g u g') :
    g.tupleVariables <+: g'.tupleVariables := by
  have hcourse : Course codec _ g g' := h.follows
  rw [hcourse.tupleVariables]
  exact Query.prefix_merge _ _

end Compiles

/-! ## The query with the branch -/

/-- **An added optional branch never narrows a query.** Let a pattern compile, and let it still
compile with one more branch behind the others. The clauses that must match are then the same as
before, the optional blocks are those from before and one more, in which there is a triple, and
the variables of its rows begin with those from before. -/
theorem keeps_with_branch {pattern : Node} {g g' : Group} (h : compile check codec pattern = .ok g)
    (h' : compile check codec (withBranch branch pattern) = .ok g') :
    g'.required = g.required ∧
      (∃ block, g'.optionalBlocks = g.optionalBlocks ++ [block] ∧ ∃ t, .triple t ∈ block) ∧
      g.tupleVariables <+: g'.tupleVariables := by
  obtain ⟨compiled, hrun⟩ := yields_of_compile h
  obtain ⟨compiled', hrun'⟩ := yields_of_compile h'
  obtain ⟨-, hnode⟩ := compiles_of_compileInto hrun
  obtain ⟨-, hnode'⟩ := compiles_of_compileInto hrun'
  obtain ⟨g₁, g₂, clauses, hwithout, hbranch, rfl⟩ := hnode'.of_withBranch
  obtain ⟨-, rfl⟩ := hnode.yields.unique hwithout.yields
  have houtside : g₁.optionalDepth = 0 :=
    (Group.append_optionalDepth g₁ clauses).symm.trans hwithout.depth
  obtain ⟨block, hblocks, hstated⟩ := hbranch.leaves_block houtside
  rw [Group.append_outside houtside, Group.append_outside (hbranch.depth.trans houtside)]
  refine ⟨?_, ⟨block, hblocks, hstated⟩, hbranch.branch_tupleVariables⟩
  rw [hbranch.branch_required houtside]

/-- A pattern with a single optional branch, a filter in it, and a variable that the caller
named. -/
def branchedPattern : Node :=
  [("name", .wildcard (some "n")),
    ("$optional", .node [("age", .node [("$gt", .integer 3)])])]

/-- A branch with a subject of its own, a nested node, a filter, a branch inside of it, and a
variable that the caller named. -/
def pinnedBranch : Value :=
  .node [("@id", .string "alice"), ("knows", .node [("age", .node [("$lt", .integer 9)])]),
    ("$optional", .list [.node [("@id", .wildcard (some "who")), ("name", .string "Bob")]])]

theorem keeps_with_pinned_branch :
    ∃ g g', compile .lenient .empty branchedPattern = .ok g ∧
      compile .lenient .empty (withBranch pinnedBranch branchedPattern) = .ok g' ∧
      g.tupleVariables = ["?n"] ∧ g'.tupleVariables = ["?n", "?who"] ∧
      g'.required = g.required ∧
      (∃ block, g'.optionalBlocks = g.optionalBlocks ++ [block] ∧ ∃ t, .triple t ∈ block) ∧
      g.tupleVariables <+: g'.tupleVariables := by
  obtain ⟨g, hg, hnames⟩ := compiles_of_any .lenient .empty branchedPattern
    (p := fun g => g.tupleVariables = ["?n"]) (by decide +kernel)
  obtain ⟨g', hg', hnames'⟩ :=
    compiles_of_any .lenient .empty (withBranch pinnedBranch branchedPattern)
    (p := fun g => g.tupleVariables = ["?n", "?who"]) (by decide +kernel)
  exact ⟨g, g', hg, hg', hnames, hnames', keeps_with_branch hg hg'⟩

end Pattern

end LinkedData
