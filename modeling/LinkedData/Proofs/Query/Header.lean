import LinkedData.Proofs.Query.Described
import LinkedData.Proofs.Query.Mention

/-!
# The header of a select query

A select query returns the variables that its patterns name. If they name none, it returns the
described subjects instead, and these need not be variables. A header is thus of one of two
kinds; for each of them it is told what is in it, in which order, and whether it stands in a
triple (`Query.OfPatterns.select_header`).
-/

namespace LinkedData

namespace Query

/-! ## Merging -/

theorem merge_append (items more others : List String) :
    merge items (more ++ others) = merge (merge items more) others :=
  List.foldl_append

theorem merge_cons (items : List String) (item : String) (more : List String) :
    merge items (item :: more) = merge (insertNew item items) more :=
  rfl

theorem mem_merge {items more : List String} {token : String} :
    token ∈ merge items more ↔ token ∈ items ∨ token ∈ more := by
  induction more generalizing items with
  | nil => simp [merge]
  | cons item more ih =>
    rw [merge_cons, ih, mem_insertNew, List.mem_cons, @or_comm (token = item), or_assoc]

theorem merge_eraseDups (items more : List String) :
    merge items.eraseDups more = (items ++ more).eraseDups := by
  induction more generalizing items with
  | nil => rw [List.append_nil]; rfl
  | cons item more ih =>
    rw [merge_cons, insertNew_eraseDups, ih, List.append_assoc, List.singleton_append]

theorem merge_insertNew (items more : List String) (item : String) :
    merge items (insertNew item more) = insertNew item (merge items more) := by
  by_cases h : item ∈ more
  · have hin : item ∈ merge items more := mem_merge.2 (.inr h)
    rw [insertNew, if_pos (List.contains_iff_mem.2 h), insertNew,
      if_pos (List.contains_iff_mem.2 hin)]
  · rw [insertNew, if_neg (fun hc => h (List.contains_iff_mem.1 hc)), merge_append]
    rfl

/-- It does not matter in which order lists are merged together. -/
theorem merge_merge (items more others : List String) :
    merge items (merge more others) = merge (merge items more) others := by
  induction others generalizing more with
  | nil => rfl
  | cons item others ih => rw [merge_cons, ih, merge_insertNew, merge_cons]

/-- What is collected from the siblings of a query. -/
theorem foldl_merge (f : Query → List String) (items more : List String)
    (siblings : List Query) :
    siblings.foldl (fun items sibling => merge items (f sibling)) (merge items more) =
      merge items (siblings.foldl (fun items sibling => merge items (f sibling)) more) := by
  induction siblings generalizing more with
  | nil => rfl
  | cons sibling siblings ih => rw [List.foldl_cons, List.foldl_cons, ← merge_merge, ih]

theorem namedVariables_union (q r : Query) :
    (q.union r).namedVariables = merge q.namedVariables r.namedVariables := by
  have hfold := foldl_merge (·.main.tupleVariables) q.namedVariables r.main.tupleVariables
    r.siblings
  rw [namedVariables, union, members, List.foldl_append, List.foldl_cons]
  exact hfold

theorem describeProjection_union (q r : Query) :
    (q.union r).describeProjection = merge q.describeProjection r.describeProjection := by
  have hfold := foldl_merge (·.main.projection) q.describeProjection r.main.projection r.siblings
  rw [describeProjection, union, members, List.foldl_append, List.foldl_cons]
  exact hfold

theorem groups_union (q r : Query) : (q.union r).groups = q.groups ++ r.groups := by
  simp [groups, members, union, alone]

/-! ## Queries of several patterns -/

/-- The query asks for whatever matches one of the patterns. -/
inductive OfPatterns (check : RegexCheck) (codec : Codec) : List Node → Query → Prop where
  /-- one pattern -/
  | pattern {pattern : Node} {q : Query} (h : ofPattern check codec pattern = .ok q) :
      OfPatterns check codec [pattern] q
  /-- what matches either of two queries -/
  | union {ps rs : List Node} {q r : Query} (hq : OfPatterns check codec ps q)
      (hr : OfPatterns check codec rs r) : OfPatterns check codec (ps ++ rs) (q.union r)

/-- The variables that patterns name, in order. -/
def namesOf (codec : Codec) (patterns : List Node) : List String :=
  patterns.flatMap fun pattern => (Pattern.trailOf codec pattern).names

end Query

/-! ## Along the course -/

/-- The group has the token in a triple, if only in the open block. -/
def Group.Writes (g : Group) (token : String) : Prop :=
  g.Mentions token ∨ Mentioned token g.optionalBuffer

theorem Group.Writes.append {g : Group} {token : String} (h : g.Writes token)
    (clauses : List Clause) : (g.append clauses).Writes token :=
  h.imp (·.append clauses) fun h => Group.mentioned_buffer_append h clauses

theorem Group.writes_append {token : String} {clauses : List Clause}
    (h : Mentioned token clauses) (g : Group) : (g.append clauses).Writes token :=
  (Group.mentioned_append h g).imp And.right And.right

/-- A branch that is handed over leaves every token but its subject. -/
theorem Group.Writes.join {g : Group} {token subject : String} (h : g.Writes token)
    (hne : token ≠ subject) (node : Nat) (parent : String) :
    (g.handedOver node subject parent).exitOptional.Writes token := by
  rcases h with h | h
  · exact .inl (Group.Mentions.exitOptional h)
  · have hsame : token = subject → subject = parent := fun heq => absurd heq hne
    have hbuffer := Group.mentioned_handedOver h hsame node
    exact (Group.mentioned_exitOptional hbuffer).imp_right And.right

theorem isVariable_named (name : String) : isVariable ("?" ++ name) = true :=
  Text.startsWith_iff.2 ⟨name, rfl⟩

theorem isVariable_of_identifier {id : Option Value} {token : String}
    (h : token ∈ identifierNames id) : isVariable token = true := by
  rw [identifierNames.eq_def] at h
  split at h
  · obtain rfl := List.mem_singleton.1 h
    exact isVariable_named _
  · cases h

/-- A subject is a variable or a locator. -/
theorem form_of_subject (number : Nat) (entries : Node) :
    isVariable (subjectOf number entries) = true ∨
      ∃ locator, subjectOf number entries = Literal.bracketed locator := by
  rw [subjectOf]
  rcases hid : identifierToken? (identifier? entries) with _ | token
  · exact .inl (isVariable_subjectVariable number)
  · have hnamed : Named token entries := hid
    rcases hnamed.cases with ⟨name, -, rfl⟩ | hlocator
    · exact .inl (isVariable_named name)
    · exact .inr hlocator

namespace Course

variable {codec : Codec} {trail : Trail} {g g' : Group} {token : String}

/-- The named variables are recorded as they come. -/
theorem tupleVariables (h : Course codec trail g g') :
    g'.tupleVariables = Query.merge g.tupleVariables trail.names := by
  induction h with
  | refl g | anonymous g | named g name | filter g node => rfl
  | trans first second ih₁ ih₂ => rw [ih₂, ih₁, Trail.names_append, Query.merge_append]
  | node inner stated ih =>
    rw [Group.append_tupleVariables, ih, names_nodeTrail, Query.merge_append]
    rfl
  | branch inner stated ih =>
    rw [Group.exitOptional_tupleVariables, Group.handedOver, Group.append_tupleVariables, ih,
      names_nodeTrail, Query.merge_append]
    rfl

/-- Names are names of variables. -/
theorem isVariable_of_named (h : Course codec trail g g') (ht : token ∈ trail.names) :
    isVariable token = true := by
  induction h with
  | refl g | anonymous g | filter g node => cases ht
  | named g name =>
    obtain rfl := List.mem_singleton.1 ht
    exact isVariable_named name
  | trans first second ih₁ ih₂ =>
    rw [Trail.names_append] at ht
    exact (List.mem_append.1 ht).elim ih₁ ih₂
  | node inner stated ih | branch inner stated ih =>
    rw [names_nodeTrail] at ht
    exact (List.mem_append.1 ht).elim isVariable_of_identifier ih

/-- What is described is a variable or a locator. -/
theorem form_of_described (h : Course codec trail g g') (ht : token ∈ trail.described) :
    isVariable token = true ∨ ∃ locator, token = Literal.bracketed locator := by
  induction h with
  | refl g | anonymous g | filter g node | named g name => cases ht
  | trans first second ih₁ ih₂ =>
    rw [Trail.described_append] at ht
    exact (List.mem_append.1 ht).elim ih₁ ih₂
  | @node entries inverse trail clauses g g' inner stated ih =>
    rw [described_nodeTrail_edge] at ht
    refine (List.mem_append.1 ht).elim (fun ht => ?_) ih
    cases inverse with
    | true => cases ht
    | false =>
      obtain rfl := List.mem_singleton.1 ht
      exact form_of_subject g.nodeCounter entries
  | branch inner stated ih =>
    rw [described_nodeTrail_branch] at ht
    exact ih ht

/-- The subject of a node that begins is pending. -/
theorem pending_opened {pending : List String}
    (hg : ∀ token ∈ g.projection, token ∈ pending ∨ g.Writes token) (entries : Node)
    (inverse : Bool) : ∀ token ∈ (g.opened entries inverse).projection,
      token ∈ subjectOf g.nodeCounter entries :: pending ∨ g.Writes token := by
  intro token ht
  rcases Group.mem_opened_projection ht with rfl | ht
  · exact .inl List.mem_cons_self
  · exact (hg token ht).imp_left (List.mem_cons_of_mem _)

/-- Whatever comes into the projection is written, or is the subject of a node that is still
open. -/
theorem writes_projected (h : Course codec trail g g') (pending : List String)
    (hg : ∀ token ∈ g.projection, token ∈ pending ∨ g.Writes token) :
    ∀ token ∈ g'.projection, token ∈ pending ∨ g'.Writes token := by
  induction h generalizing pending with
  | refl g | anonymous g | named g name | filter g node => exact hg
  | trans first second ih₁ ih₂ => exact ih₂ pending (ih₁ pending hg)
  | @node entries inverse trail clauses g g' inner stated ih =>
    intro token ht
    rw [Group.append_projection] at ht
    rcases ih _ (pending_opened hg entries inverse) token ht with hpending | hwrites
    · rcases List.mem_cons.1 hpending with rfl | hpending
      · exact .inr (Group.writes_append (stated _ List.mem_cons_self) g')
      · exact .inl hpending
    · exact .inr (hwrites.append clauses)
  | @branch entries parent trail clauses g g' inner stated ih =>
    intro token ht
    rw [Group.exitOptional_projection] at ht
    obtain ⟨ht, hne⟩ := List.mem_filter.1 ht
    rw [Group.append_projection] at ht
    have hne : token ≠ subjectOf g.nodeCounter entries := bne_iff_ne.1 hne
    have hentered : ∀ token ∈ g.enterOptional.projection,
        token ∈ pending ∨ g.enterOptional.Writes token := hg
    rcases ih _ (pending_opened hentered entries false) token ht with hpending | hwrites
    · exact .inl ((List.mem_cons.1 hpending).resolve_left hne)
    · exact .inr ((hwrites.append clauses).join hne _ parent)

end Course

/-! ## Headers -/

namespace Pattern

variable {check : RegexCheck} {codec : Codec} {pattern : Node} {g : Group}

theorem tupleVariables_of_compile (h : compile check codec pattern = .ok g) :
    g.tupleVariables = (trailOf codec pattern).names.eraseDups := by
  rw [(course_of_compile h).tupleVariables]
  exact Query.merge_eraseDups [] _

/-- Whatever a group describes stands in one of its triples. -/
theorem mentions_of_projected (h : compile check codec pattern = .ok g) {token : String}
    (ht : token ∈ g.projection) : g.Mentions token := by
  have hcourse := course_of_compile h
  rcases hcourse.writes_projected [] nofun token ht with ht | hmentions | ⟨c, hc, -⟩
  · cases ht
  · exact hmentions
  · rw [hcourse.buffer rfl rfl] at hc
    cases hc

end Pattern

namespace Query

theorem compile_of_ofPattern {check : RegexCheck} {codec : Codec} {pattern : Node} {q : Query}
    (h : ofPattern check codec pattern = .ok q) :
    ∃ g, Pattern.compile check codec pattern = .ok g ∧ q = ofGroup g := by
  rcases hg : Pattern.compile check codec pattern with e | g
  · rw [ofPattern, hg] at h
    cases h
  · rw [ofPattern, hg] at h
    exact ⟨g, rfl, (Except.ok.inj h).symm⟩

theorem ofPattern_of_compile {check : RegexCheck} {codec : Codec} {pattern : Node} {g : Group}
    (h : Pattern.compile check codec pattern = .ok g) :
    ofPattern check codec pattern = .ok (ofGroup g) := by
  rw [ofPattern, h]
  rfl

namespace OfPatterns

variable {check : RegexCheck} {codec : Codec} {patterns : List Node} {q : Query}

/-- Every pattern has its group. -/
theorem group_of_pattern (h : OfPatterns check codec patterns q) {pattern : Node}
    (hp : pattern ∈ patterns) : ∃ g ∈ q.groups, Pattern.compile check codec pattern = .ok g ∧
      ∀ token ∈ g.projection, token ∈ q.describeProjection := by
  induction h with
  | pattern hpattern =>
    obtain ⟨g, hg, rfl⟩ := compile_of_ofPattern hpattern
    obtain rfl := List.mem_singleton.1 hp
    exact ⟨g, List.mem_singleton_self g, hg, fun _ ht => ht⟩
  | union hq hr ihq ihr =>
    rw [groups_union, describeProjection_union]
    rcases List.mem_append.1 hp with hp | hp
    · obtain ⟨g, hmem, hg, hprojected⟩ := ihq hp
      exact ⟨g, List.mem_append_left _ hmem, hg,
        fun token ht => mem_merge.2 (.inl (hprojected token ht))⟩
    · obtain ⟨g, hmem, hg, hprojected⟩ := ihr hp
      exact ⟨g, List.mem_append_right _ hmem, hg,
        fun token ht => mem_merge.2 (.inr (hprojected token ht))⟩

/-- Whatever a query describes is described by the group of a pattern. -/
theorem group_of_described (h : OfPatterns check codec patterns q) {token : String}
    (ht : token ∈ q.describeProjection) : ∃ pattern ∈ patterns, ∃ g ∈ q.groups,
      Pattern.compile check codec pattern = .ok g ∧ token ∈ g.projection := by
  induction h with
  | pattern hpattern =>
    obtain ⟨g, hg, rfl⟩ := compile_of_ofPattern hpattern
    exact ⟨_, List.mem_singleton_self _, g, List.mem_singleton_self g, hg, ht⟩
  | union hq hr ihq ihr =>
    rw [describeProjection_union] at ht
    rw [groups_union]
    rcases mem_merge.1 ht with ht | ht
    · obtain ⟨pattern, hp, g, hmem, hg, ht⟩ := ihq ht
      exact ⟨pattern, List.mem_append_left _ hp, g, List.mem_append_left _ hmem, hg, ht⟩
    · obtain ⟨pattern, hp, g, hmem, hg, ht⟩ := ihr ht
      exact ⟨pattern, List.mem_append_right _ hp, g, List.mem_append_right _ hmem, hg, ht⟩

theorem namedVariables_eq (h : OfPatterns check codec patterns q) :
    q.namedVariables = (namesOf codec patterns).eraseDups := by
  induction h with
  | pattern hpattern =>
    obtain ⟨g, hg, rfl⟩ := compile_of_ofPattern hpattern
    rw [namesOf, List.flatMap_singleton]
    exact Pattern.tupleVariables_of_compile hg
  | @union ps rs q r hq hr ihq ihr =>
    have hempty : (namesOf codec rs).eraseDups = merge [] (namesOf codec rs) :=
      (merge_eraseDups [] _).symm
    have happend : namesOf codec (ps ++ rs) = namesOf codec ps ++ namesOf codec rs :=
      List.flatMap_append
    rw [namedVariables_union, ihq, ihr, hempty, merge_merge, happend]
    exact merge_eraseDups _ _

theorem isVariable_of_named (h : OfPatterns check codec patterns q) {token : String}
    (ht : token ∈ namesOf codec patterns) : isVariable token = true := by
  obtain ⟨pattern, hp, ht⟩ := List.mem_flatMap.1 ht
  obtain ⟨g, -, hg, -⟩ := h.group_of_pattern hp
  exact (Pattern.course_of_compile hg).isVariable_of_named ht

/-- **The header of a select query.** If the patterns of a query name variables, the header
holds exactly these, in the order of their first mention; each of them stands in a triple of the
group of every pattern that states it without having it replaced. Otherwise the header holds
described subjects, each of which is a variable or a locator and stands in a triple of a group;
it is not empty if in some pattern no optional branch has the subject of the pattern itself. -/
theorem select_header (h : OfPatterns check codec patterns q) :
    (namesOf codec patterns ≠ [] →
      q.selectProjection ≠ [] ∧ q.selectProjection = (namesOf codec patterns).eraseDups ∧
      ∀ token ∈ q.selectProjection, isVariable token = true ∧
        ∀ pattern ∈ patterns, token ∈ (Pattern.trailOf codec pattern).kept →
          ∃ g ∈ q.groups, Pattern.compile check codec pattern = .ok g ∧ g.Mentions token) ∧
    (namesOf codec patterns = [] →
      q.selectProjection = q.describeProjection ∧
      (∀ token ∈ q.selectProjection,
        (isVariable token = true ∨ ∃ locator, token = Literal.bracketed locator) ∧
        ∃ pattern ∈ patterns, token ∈ (Pattern.trailOf codec pattern).described ∧
          ∃ g ∈ q.groups, Pattern.compile check codec pattern = .ok g ∧ g.Mentions token) ∧
      ((∃ pattern ∈ patterns, subjectOf 0 pattern ∉ (Pattern.trailOf codec pattern).joined) →
        q.selectProjection ≠ [])) := by
  refine ⟨fun hnames => ?_, fun hnames => ?_⟩
  · have hne : (namesOf codec patterns).eraseDups ≠ [] := by
      obtain ⟨token, ht⟩ := List.exists_mem_of_ne_nil _ hnames
      exact List.ne_nil_of_mem (List.mem_eraseDups.2 ht)
    have hselect : q.selectProjection = (namesOf codec patterns).eraseDups := by
      rw [selectProjection, h.namedVariables_eq, if_neg (fun he => hne (List.isEmpty_iff.1 he))]
    refine ⟨hselect ▸ hne, hselect, fun token ht => ?_⟩
    rw [hselect, List.mem_eraseDups] at ht
    refine ⟨h.isVariable_of_named ht, fun pattern hp hkept => ?_⟩
    obtain ⟨g, hmem, hg, -⟩ := h.group_of_pattern hp
    exact ⟨g, hmem, hg, Pattern.mentions_of_kept hg hkept⟩
  · have hselect : q.selectProjection = q.describeProjection := by
      rw [selectProjection, h.namedVariables_eq, hnames]
      rfl
    rw [hselect]
    refine ⟨rfl, fun token ht => ?_, ?_⟩
    · obtain ⟨pattern, hp, g, hmem, hg, ht⟩ := h.group_of_described ht
      have hcourse := Pattern.course_of_compile hg
      have hdescribed := (hcourse.described_of_projected ht).resolve_left nofun
      exact ⟨hcourse.form_of_described hdescribed, pattern, hp, hdescribed, g, hmem, hg,
        Pattern.mentions_of_projected hg ht⟩
    · rintro ⟨pattern, hp, hroot⟩
      obtain ⟨g, -, hg, hprojected⟩ := h.group_of_pattern hp
      have hsubject := (Pattern.course_of_compile hg).projected_of_described
        (.inr (Pattern.root_described hg)) hroot
      exact List.ne_nil_of_mem (hprojected _ hsubject)

end OfPatterns

/-- A pattern that names two variables, one of them for an optional branch. -/
def namingPattern : Node :=
  [("name", .wildcard (some "n")),
    ("$optional", .node [("@id", .wildcard (some "who")), ("age", .integer 3)])]

/-- A pattern that names a property. -/
def relatingPattern : Node :=
  [("@id", .string "alice"), ("?rel", .string "x")]

theorem header_naming_or_relating :
    ∃ q, OfPatterns .lenient .empty [namingPattern, relatingPattern] q ∧
      q.selectProjection = ["?n", "?who", "?rel"] ∧ ∃ g ∈ q.groups, g.Mentions "?rel" := by
  obtain ⟨g₁, hg₁, -⟩ := Pattern.compiles_of_any .lenient .empty namingPattern (p := fun _ => True)
    (by decide +kernel)
  obtain ⟨g₂, hg₂, -⟩ :=
    Pattern.compiles_of_any .lenient .empty relatingPattern (p := fun _ => True)
    (by decide +kernel)
  have h : OfPatterns .lenient .empty [namingPattern, relatingPattern]
      ((ofGroup g₁).union (ofGroup g₂)) :=
    .union (.pattern (ofPattern_of_compile hg₁)) (.pattern (ofPattern_of_compile hg₂))
  obtain ⟨-, hselect, hentries⟩ := (OfPatterns.select_header h).1 (by decide +kernel)
  have hnames : (namesOf .empty [namingPattern, relatingPattern]).eraseDups =
      ["?n", "?who", "?rel"] := by decide +kernel
  rw [hnames] at hselect
  rw [hselect] at hentries
  obtain ⟨g, hmem, -, hmentions⟩ := (hentries "?rel" (by decide)).2 relatingPattern (by simp)
    (by decide +kernel)
  exact ⟨_, h, hselect, g, hmem, hmentions⟩

/-- A header is not always one of variables that stand in triples: without names, a locator can
be in it, and with names, a variable that an optional branch hands over, or that stands for the
property of no edge at all. -/
theorem header_beyond_variables :
    (∃ g, Pattern.compile .lenient .empty
        [("@id", .string "alice"), ("knows", .node [("age", .integer 30)])] = .ok g ∧
      (ofGroup g).selectProjection = ["<http://grel.org/ids/id/alice>", "?S_1"] ∧
      isVariable "<http://grel.org/ids/id/alice>" = false) ∧
    (∃ g, Pattern.compile .lenient .empty namingPattern = .ok g ∧
      "?who" ∈ (ofGroup g).selectProjection ∧ ¬ g.Mentions "?who") ∧
    ∃ g, Pattern.compile .lenient .empty [("?rel", .list [])] = .ok g ∧
      "?rel" ∈ (ofGroup g).selectProjection ∧ ¬ g.Mentions "?rel" :=
  ⟨Pattern.compiles_of_any _ _ _ (by decide +kernel),
    Pattern.compiles_of_any _ _ _ (by decide +kernel),
    Pattern.compiles_of_any _ _ _ (by decide +kernel)⟩

end Query

end LinkedData
