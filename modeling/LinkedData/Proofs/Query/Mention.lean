import LinkedData.Proofs.Query.Course

/-!
# What is asked for stays asked for

The clauses of a node state its subject and whatever its edges lead to. Clauses that must match
are never touched again. Those of an optional branch are held back until the outermost branch
around it ends, and every branch that ends meanwhile has its subject replaced by that of the
node that holds it. So a token is lost only by sharing it with such a branch (`Trail.replaced`);
all other tokens end up in a triple of the group (`Pattern.mentions_stated`).
-/

namespace LinkedData

/-- One of the triples of the group has the token in it. -/
def Group.Mentions (g : Group) (token : String) : Prop :=
  Mentioned token g.required ∨ ∃ block ∈ g.optionalBlocks, Mentioned token block

instance (g : Group) (token : String) : Decidable (g.Mentions token) :=
  inferInstanceAs (Decidable (_ ∨ ∃ block ∈ g.optionalBlocks, Mentioned token block))

section

variable {token : String} {g : Group}

/-! ## Tokens in the open block -/

theorem Group.Mentions.append (h : g.Mentions token) (clauses : List Clause) :
    (g.append clauses).Mentions token := by
  rw [Group.append]
  split
  · exact h
  · exact h.imp_left (·.left clauses)

theorem Group.mentioned_buffer_append (h : Mentioned token g.optionalBuffer)
    (clauses : List Clause) : Mentioned token (g.append clauses).optionalBuffer := by
  rw [Group.append]
  split
  · exact h.left clauses
  · exact h

/-- Outside of optional branches a clause is there for good; inside, it is held back. -/
theorem Group.mentioned_append {clauses : List Clause} (h : Mentioned token clauses)
    (g : Group) : (g.optionalDepth = 0 ∧ (g.append clauses).Mentions token) ∨
      (g.optionalDepth ≠ 0 ∧ Mentioned token (g.append clauses).optionalBuffer) := by
  rw [Group.append]
  split
  · rename_i hopen
    exact .inr ⟨Nat.pos_iff_ne_zero.1 (of_decide_eq_true hopen), h.right _⟩
  · rename_i hopen
    have hdepth : ¬ 0 < g.optionalDepth := fun hpos => hopen (decide_eq_true hpos)
    exact .inl ⟨by omega, .inl (h.right _)⟩

theorem Group.Mentions.exitOptional (h : g.Mentions token) : g.exitOptional.Mentions token := by
  rw [Group.exitOptional]
  split
  · rcases h with h | ⟨block, hblock, hmention⟩
    · exact .inl h
    · exact .inr ⟨block, List.mem_append_left _ hblock, hmention⟩
  · exact h

/-- When the outermost block is closed, what it holds is there for good. -/
theorem Group.mentioned_exitOptional (h : Mentioned token g.optionalBuffer) :
    g.exitOptional.Mentions token ∨
      (g.optionalDepth ≠ 1 ∧ Mentioned token g.exitOptional.optionalBuffer) := by
  rw [Group.exitOptional]
  split
  · exact .inl (.inr ⟨_, List.mem_append_right _ (List.mem_singleton_self _), h⟩)
  · rename_i hdepth
    exact .inr ⟨by omega, h⟩

/-- A token that is not replaced by another one stays in its clause. -/
theorem Clause.Mentions.substitute {c : Clause} {subject parent : String} (h : c.Mentions token)
    (hkept : token = subject → subject = parent) :
    (c.substitute subject parent).Mentions token := by
  have hsame : Triple.replaceToken subject parent token = token := by
    rw [Triple.replaceToken]
    split
    · rename_i heq
      exact (heq.trans (hkept heq)).symm
    · rfl
  cases c with
  | filter _ => exact h
  | triple t =>
    rcases Triple.mem_tokens.1 h with heq | heq | heq
    · exact Triple.mem_tokens.2 (.inl (by rw [Triple.substitute, ← heq, hsame]))
    · exact Triple.mem_tokens.2 (.inr (.inl (by rw [Triple.substitute, ← heq, hsame])))
    · exact Triple.mem_tokens.2 (.inr (.inr (by rw [Triple.substitute, ← heq, hsame])))

theorem Group.mentioned_handedOver (h : Mentioned token g.optionalBuffer) {subject parent : String}
    (hkept : token = subject → subject = parent) (node : Nat) :
    Mentioned token (g.handedOver node subject parent).optionalBuffer := by
  obtain ⟨c, hc, hmention⟩ := h
  exact ⟨_, List.mem_map_of_mem hc, hmention.substitute hkept⟩

end

/-! ## What is replaced on the trail -/

namespace Trail

/-- The subjects that are replaced by others before the outermost open branch ends. -/
def replaced : Trail → List String
  | [] => []
  | .joined depth subject parent :: rest =>
    (if subject = parent then [] else [subject]) ++ if depth = 1 then [] else replaced rest
  | _ :: rest => replaced rest

/-- What nodes state without having it replaced. -/
def kept : Trail → List String
  | [] => []
  | .closed depth stated :: rest =>
    stated.filter (fun token => depth = 0 ∨ token ∉ replaced rest) ++ kept rest
  | _ :: rest => kept rest

theorem mem_kept_of_closed {before after : Trail} {depth : Nat} {stated : List String}
    {token : String} (hstated : token ∈ stated) (hkept : depth = 0 ∨ token ∉ after.replaced) :
    token ∈ kept (before ++ .closed depth stated :: after) := by
  induction before with
  | nil =>
    exact List.mem_append_left _ (List.mem_filter.2 ⟨hstated, decide_eq_true hkept⟩)
  | cons event before ih =>
    cases event with
    | closed _ _ => exact List.mem_append_right _ ih
    | _ => exact ih

theorem replaced_named_append (tokens : List String) (rest : Trail) :
    replaced (tokens.map .named ++ rest) = replaced rest := by
  induction tokens with
  | nil => rfl
  | cons token tokens ih => exact ih

theorem kept_named_append (tokens : List String) (rest : Trail) :
    kept (tokens.map .named ++ rest) = kept rest := by
  induction tokens with
  | nil => rfl
  | cons token tokens ih => exact ih

end Trail

/-- In the group, or from now on, the token is stated and not replaced: it stands in a triple for
good, or in the open block without being replaced on the rest of the trail, or it will be stated
there. -/
def Held (token : String) (g : Group) (rest : Trail) : Prop :=
  g.Mentions token ∨ (Mentioned token g.optionalBuffer ∧ token ∉ rest.replaced) ∨
    token ∈ rest.kept

section

variable {token : String} {g : Group} {rest : Trail}

/-- A node begins. -/
theorem Held.begin {codec : Codec} {depth number : Nat} {place : Place} {entries : Node}
    {inner : Trail} (h : Held token g (nodeTrail codec depth number place entries inner ++ rest)) :
    Held token g (inner ++ .closed depth (nodeTokens codec (subjectOf number entries) entries) ::
      (place.leave depth (subjectOf number entries) ++ rest)) := by
  simp only [nodeTrail, List.append_assoc, List.cons_append] at h
  rwa [Held, Trail.replaced_named_append, Trail.kept_named_append] at h

/-- A node ends. -/
theorem Held.close {clauses : List Clause} {stated : List String}
    (hclauses : ∀ token ∈ stated, Mentioned token clauses)
    (h : Held token g (.closed g.optionalDepth stated :: rest)) :
    Held token (g.append clauses) rest := by
  rcases h with h | ⟨hbuffer, hrest⟩ | hkept
  · exact .inl (h.append clauses)
  · exact .inr (.inl ⟨Group.mentioned_buffer_append hbuffer clauses, hrest⟩)
  · rcases List.mem_append.1 hkept with hstated | hkept
    · obtain ⟨hstated, hsafe⟩ := List.mem_filter.1 hstated
      rcases Group.mentioned_append (hclauses token hstated) g with ⟨-, h⟩ | ⟨hopen, h⟩
      · exact .inl h
      · exact .inr (.inl ⟨h, (of_decide_eq_true hsafe).resolve_left hopen⟩)
    · exact .inr (.inr hkept)

/-- An optional branch ends. -/
theorem Held.join {node : Nat} {subject parent : String}
    (h : Held token g (.joined g.optionalDepth subject parent :: rest)) :
    Held token (g.handedOver node subject parent).exitOptional rest := by
  rcases h with h | ⟨hbuffer, hrest⟩ | hkept
  · exact .inl (Group.Mentions.exitOptional h)
  · rw [Trail.replaced, List.mem_append, not_or] at hrest
    have hsame : token = subject → subject = parent := by
      rintro rfl
      by_cases heq : token = parent
      · exact heq
      · rw [if_neg heq] at hrest
        exact absurd (List.mem_singleton_self token) hrest.1
    have hbuffer := Group.mentioned_handedOver hbuffer hsame node
    rcases Group.mentioned_exitOptional hbuffer with h | ⟨hinner, h⟩
    · exact .inl h
    · have hdepth : g.optionalDepth ≠ 1 := hinner
      rw [if_neg hdepth] at hrest
      exact .inr (.inl ⟨h, hrest.2⟩)
  · exact .inr (.inr hkept)

end

/-! ## Along the course -/

namespace Course

variable {codec : Codec} {trail : Trail} {g g' : Group} {token : String}

/-- Every course holds what it is to hold. -/
theorem held (h : Course codec trail g g') {rest : Trail} (hheld : Held token g (trail ++ rest)) :
    Held token g' rest := by
  induction h generalizing rest with
  | refl g | anonymous g | named g name | filter g node => exact hheld
  | trans first second ih₁ ih₂ =>
    rw [List.append_assoc] at hheld
    exact ih₂ (ih₁ hheld)
  | @node entries inverse trail clauses g g' inner stated ih =>
    have hdepth : g'.optionalDepth = g.optionalDepth := inner.depth
    refine Held.close stated (ih ?_)
    rw [hdepth]
    cases inverse with
    | false | true => exact hheld.begin
  | @branch entries parent trail clauses g g' inner stated ih =>
    have hdepth : g'.optionalDepth = g.optionalDepth + 1 := inner.depth
    refine Held.join (Held.close stated (ih ?_))
    rw [Group.append_optionalDepth, hdepth]
    exact hheld.begin

end Course

namespace Pattern

/-- Whatever nodes state without having it replaced stands in a triple of the group. -/
theorem mentions_of_kept {check : RegexCheck} {codec : Codec} {pattern : Node} {g : Group}
    {token : String} (h : compile check codec pattern = .ok g)
    (hkept : token ∈ (trailOf codec pattern).kept) :
    g.Mentions token := by
  have hcourse := course_of_compile h
  have hheld : Held token .empty (trailOf codec pattern ++ []) := by
    rw [List.append_nil]
    exact .inr (.inr hkept)
  rcases hcourse.held hheld with h | ⟨⟨c, hc, -⟩, -⟩ | h
  · exact h
  · rw [hcourse.buffer rfl rfl] at hc
    cases hc
  · cases h

/-- **Nothing disappears unless an optional branch shares it.** Every node of a pattern, outside of
filters, ends on the trail with all that it states: its identifier, named wildcards, and the
scalars that its edges lead to. This stands in a triple of the group if the node is in no
optional branch, or if no branch that ends from there on to the end of the outermost one has
it for its subject and hands it over to another one. -/
theorem mentions_stated {check : RegexCheck} {codec : Codec} {pattern : Node} {g : Group}
    (h : compile check codec pattern = .ok g) :
    (∀ inner, Contains inner (.node pattern) → ∃ depth number,
      .closed depth (nodeTokens codec (subjectOf number inner) inner) ∈ trailOf codec pattern) ∧
    ∀ before after depth stated, trailOf codec pattern = before ++ .closed depth stated :: after →
      ∀ token ∈ stated, (depth = 0 ∨ token ∉ Trail.replaced after) → g.Mentions token := by
  refine ⟨fun inner hinner => closed_of_contains codec hinner 0 0 .plain, ?_⟩
  intro before after depth stated hnode token hstated hkept
  exact mentions_of_kept h (hnode ▸ Trail.mem_kept_of_closed hstated hkept)

/-- A pattern with an optional branch that has an identifier of its own. -/
def identifiedBranch : Node :=
  [("name", .string "x"), ("$optional", .node [("@id", .string "b"), ("age", .integer 3),
    ("city", .node [("@id", .wildcard (some "where")), ("code", .string "c")])])]

/-- What the branch holds ends up in its block. -/
theorem mentions_stated_identified_branch :
    ∃ g, compile .lenient .empty identifiedBranch = .ok g ∧
      (∃ before after, trailOf .empty identifiedBranch =
          before ++ .closed 1 ["?where", "\"c\""] :: after ∧
        "?where" ∉ Trail.replaced after ∧ "\"c\"" ∉ Trail.replaced after) ∧
      g.Mentions "?where" ∧ g.Mentions "\"c\"" := by
  obtain ⟨g, hg, -⟩ := compiles_of_any .lenient .empty identifiedBranch (p := fun _ => True)
    (by decide +kernel)
  have hnode : trailOf .empty identifiedBranch = (trailOf .empty identifiedBranch).take 4 ++
      .closed 1 ["?where", "\"c\""] :: (trailOf .empty identifiedBranch).drop 5 := by
    decide +kernel
  have hwhere : "?where" ∉ Trail.replaced ((trailOf .empty identifiedBranch).drop 5) := by
    decide +kernel
  have hcode : "\"c\"" ∉ Trail.replaced ((trailOf .empty identifiedBranch).drop 5) := by
    decide +kernel
  obtain ⟨-, hmentions⟩ := mentions_stated hg
  exact ⟨g, hg, ⟨_, _, hnode, hwhere, hcode⟩,
    hmentions _ _ _ _ hnode "?where" (by decide) (.inr hwhere),
    hmentions _ _ _ _ hnode "\"c\"" (by decide) (.inr hcode)⟩

/-- The identifier of the branch itself is in no triple: its clauses are about the node that holds
it. -/
theorem branch_identifier_disappears :
    (∃ stated, .closed 1 stated ∈ trailOf .empty identifiedBranch ∧
      "<http://grel.org/ids/id/b>" ∈ stated) ∧
    ∃ g, compile .lenient .empty identifiedBranch = .ok g ∧
      ¬ g.Mentions "<http://grel.org/ids/id/b>" := by
  refine ⟨⟨["<http://grel.org/ids/id/b>", "\"3\"^^<http://www.w3.org/2001/XMLSchema#integer>"],
    by decide +kernel, by decide⟩, compiles_of_any _ _ _ (by decide +kernel)⟩

end Pattern

end LinkedData
