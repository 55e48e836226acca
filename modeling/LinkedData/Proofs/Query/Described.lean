import LinkedData.Proofs.Query.Course

/-!
# What a query describes

A describe query returns the nodes in the projection of its group. Subjects are put there when
their node begins, and an optional branch takes its own subject out again when it ends — by its
token, so a node that shares the token is no longer described either. If no optional branch
takes out what was described before (`Trail.Apart`), then the projection is exact: it holds the
subjects of the described nodes, in the order of their first mention
(`Pattern.describes_exactly`).
-/

namespace LinkedData

/-- Adding what is not there yet keeps the order of the first mention. -/
theorem insertNew_eraseDups (item : String) (items : List String) :
    insertNew item items.eraseDups = (items ++ [item]).eraseDups := by
  rw [insertNew, List.eraseDups_append]
  by_cases h : item ∈ items
  · simp [h, List.removeAll]
  · simp [h, List.removeAll, List.eraseDups_cons]

/-- No optional branch ends whose subject was described before. -/
def Trail.Apart (trail : Trail) : Prop :=
  trail.Pairwise fun before after => ∀ token ∈ before.described?, after.joined? ≠ some token

instance (trail : Trail) : Decidable trail.Apart :=
  inferInstanceAs (Decidable (List.Pairwise _ _))

theorem Trail.apart_append {a b : Trail} :
    Trail.Apart (a ++ b) ↔ a.Apart ∧ b.Apart ∧ ∀ token ∈ a.described, token ∉ b.joined := by
  rw [Apart, List.pairwise_append]
  refine and_congr_right fun _ => and_congr_right fun _ => ⟨fun h token ha hb => ?_, ?_⟩
  · obtain ⟨before, hbefore, hdescribed⟩ := List.mem_filterMap.1 ha
    obtain ⟨after, hafter, hjoined⟩ := List.mem_filterMap.1 hb
    exact h before hbefore after hafter token hdescribed hjoined
  · intro h before hbefore after hafter token hdescribed hjoined
    exact h token (List.mem_filterMap.2 ⟨before, hbefore, hdescribed⟩)
      (List.mem_filterMap.2 ⟨after, hafter, hjoined⟩)

section

variable (codec : Codec) (depth number : Nat) (entries : Node) (inner : Trail)

/-- What a node behind an edge describes. -/
theorem described_nodeTrail_edge (inverse : Bool) :
    (nodeTrail codec depth number (.ofEdge inverse) entries inner).described =
      (if inverse then [] else [subjectOf number entries]) ++ inner.described := by
  cases inverse <;>
    simp [nodeTrail, Trail.described, List.filterMap_cons, List.filterMap_map, Event.described?,
      Place.ofEdge, Place.leave, Function.comp_def]

theorem described_nodeTrail_branch (parent : String) :
    (nodeTrail codec depth number (.branch parent) entries inner).described = inner.described := by
  simp [nodeTrail, Trail.described, List.filterMap_cons, List.filterMap_map, Event.described?,
    Place.leave, Function.comp_def]

theorem joined_nodeTrail_edge (inverse : Bool) :
    (nodeTrail codec depth number (.ofEdge inverse) entries inner).joined = inner.joined := by
  cases inverse <;>
    simp [nodeTrail, Trail.joined, List.filterMap_cons, List.filterMap_map, Event.joined?,
      Place.ofEdge, Place.leave, Function.comp_def]

theorem joined_nodeTrail_branch (parent : String) :
    (nodeTrail codec depth number (.branch parent) entries inner).joined =
      inner.joined ++ [subjectOf number entries] := by
  simp [nodeTrail, Trail.joined, List.filterMap_cons, List.filterMap_map, Event.joined?,
    Place.leave, Function.comp_def]

/-- What it means for a node that branches take out nothing described before. -/
theorem apart_of_nodeTrail {codec depth number entries inner} {place : Place}
    (h : (nodeTrail codec depth number place entries inner).Apart) :
    inner.Apart ∧ (place = .plain → subjectOf number entries ∉ inner.joined) ∧
      ∀ parent, place = .branch parent → subjectOf number entries ∉ inner.described := by
  obtain ⟨-, hopened, -⟩ := Trail.apart_append.1 h
  obtain ⟨-, hrest, hbegin⟩ := Trail.apart_append.1 (List.singleton_append ▸ hopened)
  obtain ⟨hinner, -, hend⟩ := Trail.apart_append.1 hrest
  rw [Trail.joined_append] at hbegin
  refine ⟨hinner, ?_, ?_⟩
  · rintro rfl hin
    exact hbegin _ List.mem_cons_self (List.mem_append_left _ hin)
  · rintro parent rfl hin
    exact hend _ hin List.mem_cons_self

end

namespace Course

variable {codec : Codec} {trail : Trail} {g g' : Group} {token : String}

/-- Everything in the projection was there before, or is described on the way. -/
theorem described_of_projected (h : Course codec trail g g') (ht : token ∈ g'.projection) :
    token ∈ g.projection ∨ token ∈ trail.described := by
  induction h with
  | refl g | anonymous g | named g name | filter g node => exact .inl ht
  | trans first second ih₁ ih₂ =>
    rw [Trail.described_append, List.mem_append]
    rcases ih₂ ht with ht | ht
    · exact (ih₁ ht).imp_right .inl
    · exact .inr (.inr ht)
  | @node entries inverse trail clauses g g' inner stated ih =>
    rw [described_nodeTrail_edge]
    rw [Group.append_projection] at ht
    rcases ih ht with ht | ht
    · cases inverse with
      | true => exact .inl ht
      | false =>
        rcases mem_insertNew.1 ht with rfl | ht
        · exact .inr List.mem_cons_self
        · exact .inl ht
    · exact .inr (List.mem_append_right _ ht)
  | branch inner stated ih =>
    rw [described_nodeTrail_branch]
    rw [Group.exitOptional_projection] at ht
    obtain ⟨ht, hne⟩ := List.mem_filter.1 ht
    rw [Group.append_projection] at ht
    rcases ih ht with ht | ht
    · rcases Group.mem_opened_projection ht with rfl | ht
      · exact absurd hne (Bool.eq_false_iff.1 (bne_self_eq_false _))
      · exact .inl ht
    · exact .inr ht

/-- What is described stays in the projection if no optional branch takes it out. -/
theorem projected_of_described (h : Course codec trail g g')
    (ht : token ∈ g.projection ∨ token ∈ trail.described) (hjoined : token ∉ trail.joined) :
    token ∈ g'.projection := by
  induction h with
  | refl g | anonymous g | named g name | filter g node => exact ht.resolve_right nofun
  | trans first second ih₁ ih₂ =>
    rw [Trail.joined_append, List.mem_append, not_or] at hjoined
    rw [Trail.described_append, List.mem_append] at ht
    rcases ht with ht | ht | ht
    · exact ih₂ (.inl (ih₁ (.inl ht) hjoined.1)) hjoined.2
    · exact ih₂ (.inl (ih₁ (.inr ht) hjoined.1)) hjoined.2
    · exact ih₂ (.inr ht) hjoined.2
  | @node entries inverse trail clauses g g' inner stated ih =>
    rw [described_nodeTrail_edge] at ht
    rw [joined_nodeTrail_edge] at hjoined
    rw [Group.append_projection]
    refine ih ?_ hjoined
    cases inverse with
    | true => exact ht
    | false =>
      rcases ht with ht | ht
      · exact .inl (mem_insertNew.2 (.inr ht))
      · exact (List.mem_cons.1 ht).imp_left fun heq => mem_insertNew.2 (.inl heq)
  | branch inner stated ih =>
    rw [described_nodeTrail_branch] at ht
    rw [joined_nodeTrail_branch, List.mem_append, not_or, List.mem_singleton] at hjoined
    rw [Group.exitOptional_projection]
    refine List.mem_filter.2 ⟨?_, by simpa using hjoined.2⟩
    rw [Group.append_projection]
    exact ih (ht.imp_left fun ht => mem_insertNew.2 (.inr ht)) hjoined.1

/-- The invariant of the walk: apart from the subjects of the branches that are still open, the
projection holds what was described so far, in order. -/
theorem projection_exact (h : Course codec trail g g') (settled : String → Bool)
    (seen : List String) (hapart : trail.Apart) (hseen : ∀ token ∈ seen, token ∉ trail.joined)
    (hsettled : ∀ token ∈ seen ++ trail.described, settled token = true)
    (hg : g.projection.filter settled = seen.eraseDups) :
    g'.projection.filter settled = (seen ++ trail.described).eraseDups := by
  induction h generalizing settled seen with
  | refl g | anonymous g | named g name | filter g node =>
    exact hg.trans (congrArg List.eraseDups (List.append_nil seen).symm)
  | @trans a b g g' g'' first second ih₁ ih₂ =>
    obtain ⟨hapart₁, hapart₂, hcross⟩ := Trail.apart_append.1 hapart
    rw [Trail.described_append, ← List.append_assoc] at hsettled ⊢
    rw [Trail.joined_append] at hseen
    have hfirst := ih₁ settled seen hapart₁
      (fun token ht hin => hseen token ht (List.mem_append_left _ hin))
      (fun token ht => hsettled token (List.mem_append_left _ ht)) hg
    refine ih₂ settled _ hapart₂ (fun token ht => ?_) hsettled hfirst
    rcases List.mem_append.1 ht with ht | ht
    · exact fun hin => hseen token ht (List.mem_append_right _ hin)
    · exact hcross token ht
  | @node entries inverse trail clauses g g' inner stated ih =>
    obtain ⟨hinner, hplain, -⟩ := apart_of_nodeTrail hapart
    rw [joined_nodeTrail_edge] at hseen
    rw [described_nodeTrail_edge, ← List.append_assoc] at hsettled ⊢
    rw [Group.append_projection]
    cases inverse with
    | true =>
      rw [if_pos rfl, List.append_nil] at hsettled ⊢
      exact ih settled seen hinner hseen hsettled hg
    | false =>
      rw [if_neg Bool.false_ne_true] at hsettled ⊢
      refine ih settled _ hinner (fun token ht => ?_) hsettled ?_
      · rcases List.mem_append.1 ht with ht | ht
        · exact hseen token ht
        · exact List.mem_singleton.1 ht ▸ hplain rfl
      · have hsubject : settled (subjectOf g.nodeCounter entries) = true :=
          hsettled _ (List.mem_append_left _ (List.mem_append_right _ (List.mem_singleton_self _)))
        rw [← insertNew_eraseDups, ← hg]
        exact filter_insertNew_pos hsubject _
  | @branch entries parent trail clauses g g' inner stated ih =>
    obtain ⟨hinner, -, hbranch⟩ := apart_of_nodeTrail hapart
    rw [joined_nodeTrail_branch] at hseen
    rw [described_nodeTrail_branch] at hsettled ⊢
    -- while the branch is open, its subject is in the projection without being described
    have hother : ∀ token ∈ seen ++ trail.described,
        (settled token && token != subjectOf g.nodeCounter entries) = true := by
      intro token ht
      rw [Bool.and_eq_true, bne_iff_ne]
      refine ⟨hsettled token ht, ?_⟩
      rintro rfl
      rcases List.mem_append.1 ht with ht | ht
      · exact hseen _ ht (List.mem_append_right _ (List.mem_singleton_self _))
      · exact hbranch parent rfl ht
    rw [Group.exitOptional_projection, Group.handedOver, List.filter_filter,
      Group.append_projection]
    refine ih _ seen hinner (fun token ht hin => hseen token ht (List.mem_append_left _ hin))
      hother ?_
    have hopened : (g.enterOptional.opened entries false).projection =
      insertNew (subjectOf g.nodeCounter entries) g.projection := rfl
    rw [hopened, filter_insertNew_others, hg]
    refine List.filter_eq_self.2 fun token ht => ?_
    have hboth := hother token (List.mem_append_left _ (List.mem_eraseDups.1 ht))
    exact (Bool.and_eq_true_iff.1 hboth).2

end Course

namespace Pattern

/-- The subject of a pattern is described. -/
theorem root_described {check : RegexCheck} {codec : Codec} {pattern : Node} {g : Group}
    (h : compile check codec pattern = .ok g) :
    subjectOf 0 pattern ∈ (trailOf codec pattern).described := by
  rw [trailOf, trail, isFilter_of_compile h, if_neg Bool.false_ne_true]
  exact described_nodeTrail_edge codec 0 0 pattern _ false ▸ List.mem_cons_self

/-- **The projection is exact.** If no optional branch of a pattern ends with a subject that was
described before, then the projection holds the subjects of all nodes to which no inverse edge
leads and that are no optional branch, without repetitions and in pre-order. The subject of the
pattern itself is among them, so the header of a describe query is not empty. -/
theorem describes_exactly {check : RegexCheck} {codec : Codec} {pattern : Node} {g : Group}
    (h : compile check codec pattern = .ok g) (hapart : (trailOf codec pattern).Apart) :
    g.projection = (trailOf codec pattern).described.eraseDups ∧
      subjectOf 0 pattern ∈ g.projection ∧ (Query.ofGroup g).describeProjection ≠ [] := by
  have hexact : g.projection = (trailOf codec pattern).described.eraseDups := by
    have h := (course_of_compile h).projection_exact (fun _ => true) [] hapart nofun
      (fun _ _ => rfl) rfl
    rwa [List.filter_eq_self.2 fun _ _ => rfl, List.nil_append] at h
  have hroot : subjectOf 0 pattern ∈ g.projection := by
    rw [hexact, List.mem_eraseDups]
    exact root_described h
  exact ⟨hexact, hroot, List.ne_nil_of_mem hroot⟩

/-- A pattern with nodes in all places. Two of its nodes are the same, and the branch comes
before the node that it shares its subject with. -/
def household : Node :=
  [("@id", .wildcard none), ("$optional", .node [("@id", .string "b"), ("age", .integer 3)]),
    ("knows", .list [.node [("@id", .string "b")], .node [("name", .string "x")],
      .node [("@id", .string "b")]]),
    ("$inv_keeps", .node [("?", .node [("@id", .wildcard (some "who"))])])]

theorem describes_exactly_household :
    (trailOf .empty household).Apart ∧
      ∃ g, compile .lenient .empty household = .ok g ∧
        g.projection = ["?S_0", "<http://grel.org/ids/id/b>", "?S_3", "?who"] := by
  have hapart : (trailOf .empty household).Apart := by decide +kernel
  obtain ⟨g, hg, -⟩ := compiles_of_any .lenient .empty household (p := fun _ => True)
    (by decide +kernel)
  refine ⟨hapart, g, hg, ?_⟩
  rw [(describes_exactly hg hapart).1]
  decide +kernel

/-- A node whose optional branch has its own identifier. -/
def selfBranch : Node :=
  [("@id", .string "a"), ("$optional", .node [("@id", .string "a"), ("f", .integer 1)])]

/-- The branch takes the subject of the node out of the projection, and nothing is described. -/
theorem describes_nothing_for_self_branch :
    (trailOf .empty selfBranch).described = ["<http://grel.org/ids/id/a>"] ∧
      ∃ g, compile .lenient .empty selfBranch = .ok g ∧ g.projection = [] ∧
        (Query.ofGroup g).describeProjection = [] := by
  refine ⟨by decide +kernel, compiles_of_any _ _ _ (by decide +kernel)⟩

end Pattern

end LinkedData
