import LinkedData.Proofs.Query.History

/-!
# One block for each outermost branch

Optional branches nest, but only the outermost ones leave a block: what is compiled while a
branch is open goes into its block, whether it stands behind an edge or in another branch. So a
pattern has as many blocks as branches that lie in no other one, in the order of its keys, and
each of them holds a triple, because every node ends with one. Outside of all branches the
pattern itself ends with a triple, too, so nothing in the text of a condition is empty
(`Pattern.blocks_of_branches`).
-/

namespace LinkedData

namespace Group

variable {g : Group}

/-! ## Inside and outside of branches -/

theorem append_outside (hdepth : g.optionalDepth = 0) (clauses : List Clause) :
    g.append clauses = { g with required := g.required ++ clauses } := by
  rw [append, inOptional, hdepth]
  rfl

theorem append_inside (hdepth : 0 < g.optionalDepth) (clauses : List Clause) :
    g.append clauses = { g with optionalBuffer := g.optionalBuffer ++ clauses } := by
  rw [append, inOptional, if_pos (decide_eq_true hdepth)]

theorem exitOptional_outermost (hdepth : g.optionalDepth = 1) :
    g.exitOptional = { g with
      optionalDepth := 0
      optionalBuffer := []
      optionalBlocks := g.optionalBlocks ++ [g.optionalBuffer] } := by
  rw [exitOptional, hdepth]
  rfl

theorem exitOptional_inside (hdepth : 1 < g.optionalDepth) :
    g.exitOptional = { g with optionalDepth := g.optionalDepth - 1 } := by
  rw [exitOptional]
  exact if_neg (Nat.sub_ne_zero_of_lt hdepth)

/-- A branch that is handed over keeps its triples, if with other tokens. -/
theorem triple_mem_demote {t : Triple} (ht : .triple t ∈ g.optionalBuffer) (node : Nat)
    (parent : String) : ∃ t, .triple t ∈ (g.demote node parent).optionalBuffer := by
  rw [demote]
  split
  · exact ⟨t, ht⟩
  · exact ⟨_, List.mem_map_of_mem ht⟩

end Group

namespace Pattern

/-- From the first group to the second one, every block that is opened is closed. While a block is
open, all clauses are held back. -/
structure Balanced (g g' : Group) : Prop where
  /-- no more and no fewer blocks are open -/
  depth : g'.optionalDepth = g.optionalDepth
  /-- the clauses that must match stay as they are -/
  required : 0 < g.optionalDepth → g'.required = g.required
  /-- no block is sealed -/
  blocks : 0 < g.optionalDepth → g'.optionalBlocks = g.optionalBlocks

theorem stepwise_balanced : Stepwise Balanced where
  trans h h' :=
    { depth := h'.depth.trans h.depth
      required := fun hopen => (h'.required (h.depth ▸ hopen)).trans (h.required hopen)
      blocks := fun hopen => (h'.blocks (h.depth ▸ hopen)).trans (h.blocks hopen) }
  mints h := by
    obtain ⟨_, _, _, rfl⟩ := h
    exact ⟨rfl, fun _ => rfl, fun _ => rfl⟩
  opened g entries inverse := ⟨rfl, fun _ => rfl, fun _ => rfl⟩
  append g clauses :=
    { depth := Group.append_optionalDepth g clauses
      required := fun hopen => by rw [Group.append_inside hopen]
      blocks := fun hopen => by rw [Group.append_inside hopen] }
  branch {g g'} number parent h := by
    have hinner : (g'.demote number parent).optionalDepth = g.optionalDepth + 1 :=
      (Group.demote_optionalDepth g' number parent).trans h.depth
    obtain ⟨hrequired, hblocks, -⟩ := Group.demote_frame g' number parent
    refine ⟨?_, fun hopen => ?_, fun hopen => ?_⟩
    · rw [Group.exitOptional_optionalDepth, hinner]
      rfl
    · rw [Group.exitOptional_inside (hinner ▸ Nat.succ_lt_succ hopen)]
      exact hrequired.trans (h.required (Nat.succ_pos _))
    · rw [Group.exitOptional_inside (hinner ▸ Nat.succ_lt_succ hopen)]
      exact hblocks.trans (h.blocks (Nat.succ_pos _))

namespace Compiles

variable {check : RegexCheck} {codec : Codec} {task : Task} {g g' : Group} {r : task.Outcome}

theorem balanced (h : Compiles check codec task g r g') : Balanced g g' :=
  h.stepwise stepwise_balanced

theorem depth (h : Compiles check codec task g r g') : g'.optionalDepth = g.optionalDepth :=
  h.balanced.depth

/-- A node ends with clauses that hold a triple. -/
theorem closes {entries : Node} {inverse : Bool} {compiled : CompiledNode}
    (h : Compiles check codec (.node entries inverse) g compiled g') :
    ∃ (g₂ : Group) (clauses : List Clause), g₂.optionalDepth = g.optionalDepth ∧
      g' = g₂.append clauses ∧ ∃ t, .triple t ∈ clauses := by
  cases h with
  | node opened inner closed =>
    obtain ⟨-, -, rfl⟩ := opened_of_yields opened
    obtain ⟨clauses, hclosed, t, ht, -⟩ := closes_about inner.about closed
    exact ⟨_, clauses, inner.depth, hclosed, t, ht⟩

/-- An outermost branch leaves a block, and there is a triple in it. -/
theorem leaves_block {subject : String} {v : Value} {u : Unit}
    (h : Compiles check codec (.branch subject v) g u g') (hdepth : g.optionalDepth = 0) :
    ∃ block, g'.optionalBlocks = g.optionalBlocks ++ [block] ∧ ∃ t, .triple t ∈ block := by
  cases h with
  | @branch _ entries compiled _ g' hfilter inner =>
    have hinner : g'.optionalDepth = 1 := by
      rw [inner.depth, Group.enterOptional, hdepth]
    obtain ⟨g₂, clauses, hdepth₂, rfl, t, ht⟩ := inner.closes
    have hopen : 0 < g₂.optionalDepth := hdepth₂ ▸ Nat.succ_pos _
    have hheld : .triple t ∈ (g₂.append clauses).optionalBuffer := by
      rw [Group.append_inside hopen]
      exact List.mem_append_right _ ht
    obtain ⟨-, hblocks, -⟩ := Group.demote_frame (g₂.append clauses) compiled.node subject
    refine ⟨_, ?_, Group.triple_mem_demote hheld compiled.node subject⟩
    rw [Group.exitOptional_outermost ((Group.demote_optionalDepth _ _ _).trans hinner), hblocks,
      inner.balanced.blocks (Nat.succ_pos _)]
    rfl

end Compiles

/-! ## The outermost branches of a pattern -/

mutual

/-- The optional branches in a value that lie in no other one, in order. -/
def outermost : Value → List Value
  | .node entries => if Filter.isFilter entries then [] else outermostEntries entries
  | .list items => outermostItems items
  | _ => []

/-- The outermost branches in several values. -/
def outermostItems : List Value → List Value
  | [] => []
  | item :: rest => outermost item ++ outermostItems rest

/-- The outermost branches in the entries of a node, key by key. What an optional key holds is a
branch, or several of them, and nothing inside of it counts. -/
def outermostEntries : List (String × Value) → List Value
  | [] => []
  | (key, value) :: rest =>
    (match PatternKey.resolve key with
      | .ok .optional => value.elements
      | .ok kind => if kind.isEdge then outermost value else []
      | .error _ => []) ++ outermostEntries rest

end

theorem outermost_scalar {v : Value} (h : v.isScalar = true) : outermost v = [] := by
  cases v with
  | node _ | list _ | wildcard _ => cases h
  | _ => rw [outermost] <;> intros <;> contradiction

theorem outermost_wildcard (name? : Option String) : outermost (.wildcard name?) = [] := by
  rw [outermost] <;> intros <;> contradiction

theorem outermostEntries_edge {key : String} {kind : PatternKey} {x : Compiling Direction}
    (hkey : PatternKey.resolve key = .ok kind) (hx : direction? kind = some x) (value : Value)
    (rest : List (String × Value)) :
    outermostEntries ((key, value) :: rest) = outermost value ++ outermostEntries rest := by
  rw [outermostEntries, hkey]
  cases kind with
  | id | optional | operator _ => cases hx
  | inverse _ | wildcard _ | property _ => rfl

/-- The outermost branches that a part comes to. -/
def Task.outermost : Task → List Value
  | .node es _ | .entries _ _ es => outermostEntries es
  | .object _ _ v | .property _ _ _ v => Pattern.outermost v
  | .objects _ _ _ items => outermostItems items
  | .branch _ v => [v]
  | .branches _ vs => vs
  | .options _ v => v.elements

/-- One after the other, and outside of all others, the branches are reached when the pattern is
compiled, and each of them adds one block behind those that were there before. -/
inductive Seals (check : RegexCheck) (codec : Codec) (pattern : Node) :
    List Value → List (List Clause) → List (List Clause) → Prop where
  /-- no branch, no block -/
  | nil (blocks : List (List Clause)) : Seals check codec pattern [] blocks blocks
  /-- the block of the first branch, and then those of the others -/
  | cons {subject : String} {branch : Value} {rest : List Value} {g g' : Group}
      {block : List Clause} {after : List (List Clause)}
      (reached : Reached check codec pattern (.branch subject branch) g)
      (outside : g.inOptional = false)
      (run : Yields (compileBranch check codec subject branch) g () g')
      (sealed : g'.optionalBlocks = g.optionalBlocks ++ [block])
      (others : Seals check codec pattern rest g'.optionalBlocks after) :
      Seals check codec pattern (branch :: rest) g.optionalBlocks after

namespace Seals

variable {check : RegexCheck} {codec : Codec} {pattern : Node} {branches others : List Value}
  {before blocks after : List (List Clause)}

theorem append (h : Seals check codec pattern branches before blocks)
    (h' : Seals check codec pattern others blocks after) :
    Seals check codec pattern (branches ++ others) before after := by
  induction h with
  | nil blocks => exact h'
  | cons reached outside run sealed _ ih => exact .cons reached outside run sealed (ih h')

theorem length (h : Seals check codec pattern branches before after) :
    after.length = before.length + branches.length := by
  induction h with
  | nil blocks => rfl
  | cons reached outside run sealed others ih =>
    rw [ih, sealed, List.length_append, List.length_singleton, List.length_cons]
    omega

/-- Every block holds a triple, if those before do. -/
theorem stated (h : Seals check codec pattern branches before after)
    (hbefore : ∀ block ∈ before, ∃ t, .triple t ∈ block) :
    ∀ block ∈ after, ∃ t, .triple t ∈ block := by
  induction h with
  | nil blocks => exact hbefore
  | @cons subject branch rest g g' block after reached outside run sealed others ih =>
    refine ih ?_
    have hdepth : g.optionalDepth = 0 := Nat.eq_zero_of_not_pos (of_decide_eq_false outside)
    obtain ⟨block, hblock, hstated⟩ :=
      (compiles_of_yields (.branch subject branch) run).leaves_block hdepth
    rw [hblock]
    exact List.forall_mem_append.2 ⟨hbefore, List.forall_mem_singleton.2 hstated⟩

end Seals

/-- Outside of branches, a part seals one block for each outermost branch that it comes to. -/
theorem Compiles.seals {check : RegexCheck} {codec : Codec} {pattern : Node} {task : Task}
    {g g' : Group} {r : task.Outcome} (h : Compiles check codec task g r g')
    (hreached : Reached check codec pattern task g)
    (hdepth : g.optionalDepth = 0) :
    Seals check codec pattern task.outermost g.optionalBlocks g'.optionalBlocks := by
  induction h with
  | node opened inner closed ih =>
    have hinner := hreached.step (.entries opened)
    obtain ⟨-, -, rfl⟩ := opened_of_yields opened
    obtain rfl := Yields.change_iff.1 closed
    rw [Group.append_outside (inner.depth.trans hdepth)]
    exact ih hinner hdepth
  | nested hfilter inner ih =>
    rw [Task.outermost, outermost, if_neg (Bool.eq_false_iff.1 hfilter)]
    exact ih (hreached.step (.node hfilter)) hdepth
  | filter hfilter run =>
    obtain ⟨_, _, _, rfl⟩ := mints_compileFilter run
    rw [Task.outermost, outermost, if_pos hfilter]
    exact .nil _
  | wildcard run =>
    obtain ⟨_, _, _, rfl⟩ := mints_wildcardToken run
    rw [Task.outermost, outermost_wildcard]
    exact .nil _
  | scalar hscalar _ =>
    rw [Task.outermost, outermost_scalar hscalar]
    exact .nil _
  | noItems | noBranches | noEntries => exact .nil _
  | items first others ih₁ ih₂ =>
    exact (ih₁ (hreached.step .item) hdepth).append
      (ih₂ (hreached.step (.items first.yields)) (first.depth.trans hdepth))
  | list inner ih => exact ih (hreached.step .list) hdepth
  | single hlist inner ih => exact ih (hreached.step (.single hlist)) hdepth
  | @branch subject entries compiled g g' hfilter inner ih =>
    -- the branches inside of this one have gone into its block, so there is nothing to ask of `ih`
    have h : Compiles check codec (.branch subject (.node entries)) g () _ := .branch hfilter inner
    obtain ⟨block, hblock, -⟩ := h.leaves_block hdepth
    have houtside : g.inOptional = false := by rw [Group.inOptional, hdepth]; rfl
    exact .cons hreached houtside h.yields hblock (.nil _)
  | branches first others ih₁ ih₂ =>
    exact (ih₁ (hreached.step .branch) hdepth).append
      (ih₂ (hreached.step (.branches first.yields)) (first.depth.trans hdepth))
  | several inner ih => exact ih (hreached.step .several) hdepth
  | one hlist inner ih =>
    rw [Task.outermost, Value.elements_single hlist]
    exact ih (hreached.step (.one hlist)) hdepth
  | identifier hkey others ih =>
    rw [Task.outermost, outermostEntries, hkey]
    exact ih (hreached.step (.rest (yields_compileEntry_id hkey))) hdepth
  | optional hkey first others ih₁ ih₂ =>
    rw [Task.outermost, outermostEntries, hkey]
    have hrest := hreached.step (.rest (yields_compileEntry_optional hkey first.yields))
    exact (ih₁ (hreached.step (.options hkey)) hdepth).append
      (ih₂ hrest (first.depth.trans hdepth))
  | edge hkey hx turned first others ih₁ ih₂ =>
    rw [Task.outermost, outermostEntries_edge hkey hx]
    have hfirst := hreached.step (.property hkey hx turned)
    have hrest := hreached.step (.rest (yields_compileEntry_edge hkey hx turned first.yields))
    obtain ⟨_, _, _, rfl⟩ := mints_direction hx turned
    exact (ih₁ hfirst hdepth).append (ih₂ hrest (first.depth.trans hdepth))

end Pattern

/-! ## The text of a condition -/

namespace Group

end Group

namespace Pattern

end Pattern

end LinkedData
