import LinkedData.Proofs.Query.Dissolve

/-!
# Compiling with and without a node

Two runs are compared: one in a group with an open node, and one in the group from which the
node is dissolved. They match (`Matches`) if they fail alike or succeed alike, and after
success the groups differ by the node only. What stands in its place may change along the
way: when a branch is demoted whose subject is the image of the node, the image moves with it.
-/

namespace LinkedData

namespace Pattern

open Compiling

section

variable {α β : Type} {n : Nat} {image : String}

/-- The second computation, from the group in which the image takes the place of the node, does
what the first one does from the group with the node. It fails with the same error, or it
succeeds with the renamed result; and then some image still takes the place of the node, and
is one that is allowed after that result. -/
def Matches (n : Nat) (image : String) (rename : α → β) (x : Compiling α) (y : Compiling β)
    (g : Group) (after : α → String → Prop) : Prop :=
  match x.run g with
  | (.ok a, g') => ∃ image', after a image' ∧
      y.run (g.dissolve n image) = (.ok (rename a), g'.dissolve n image')
  | (.error e, _) => (y.run (g.dissolve n image)).1 = .error e

/-- The image stays. -/
def Still (image : String) (_ : α) (image' : String) : Prop :=
  image' = image

theorem Matches.pure {rename : α → β} {after : α → String → Prop} {a : α} {b : β}
    (h : b = rename a) (ha : after a image) (g : Group) :
    Matches n image rename (pure a) (pure b) g after := by
  subst h
  exact ⟨image, ha, rfl⟩

theorem Matches.pure_still {rename : α → β} {a : α} {b : β} (h : b = rename a) (g : Group) :
    Matches n image rename (Pure.pure a) (Pure.pure b) g (Still image) :=
  .pure h rfl g

theorem Matches.throw {rename : α → β} {after : α → String → Prop} (e : Error) (g : Group) :
    Matches n image rename (throw e) (throw e) g after :=
  rfl

theorem Matches.lift (r : Except Error α) (g : Group) :
    Matches n image id (lift r) (lift r) g (Still image) := by
  cases r with
  | error e => rfl
  | ok a => exact ⟨image, rfl, rfl⟩

theorem Matches.step {f : Group → α × Group} {g : Group}
    (h : f (g.dissolve n image) = ((f g).1, (f g).2.dissolve n image)) :
    Matches n image id (step f) (step f) g (Still image) := by
  have hrun : ∀ g, (Compiling.step f).run g = (.ok (f g).1, (f g).2) := fun _ => rfl
  rw [Matches, hrun]
  refine ⟨image, rfl, ?_⟩
  rw [hrun, h, id]

theorem run_change (f : Group → Group) (g : Group) : (change f).run g = (.ok (), f g) :=
  rfl

theorem Matches.change {f f' : Group → Group} {g : Group} {image' : String}
    {after : Unit → String → Prop}
    (h : f' (g.dissolve n image) = (f g).dissolve n image') (ha : after () image') :
    Matches n image id (change f) (change f') g after := by
  rw [Matches, run_change]
  refine ⟨image', ha, ?_⟩
  rw [run_change, h]

theorem Matches.change_still {f f' : Group → Group} {g : Group} {image' : String}
    (h : f' (g.dissolve n image) = (f g).dissolve n image') :
    Matches n image id (Compiling.change f) (Compiling.change f') g (Still image') :=
  .change h rfl

/-- A sequence matches if the parts do, the second from whatever image the first one leaves. -/
theorem Matches.bind {γ δ : Type} {rename : α → β} {rename' : γ → δ} {x : Compiling α}
    {y : Compiling β} {f : α → Compiling γ} {f' : β → Compiling δ} {g : Group}
    {after : α → String → Prop} {after' : γ → String → Prop}
    (h : Matches n image rename x y g after)
    (hf : ∀ a g' image', Yields x g a g' → after a image' →
      Matches n image' rename' (f a) (f' (rename a)) g' after') :
    Matches n image rename' (x >>= f) (y >>= f') g after' := by
  rw [Matches] at h ⊢
  rw [Yields.run_bind, Yields.run_bind]
  rcases hx : x.run g with ⟨e | a, g'⟩
  · rw [hx] at h
    rcases hy : y.run (g.dissolve n image) with ⟨e' | b, d⟩
    · rw [hy] at h
      obtain rfl : e' = e := Except.error.inj h
      rfl
    · rw [hy] at h
      cases h
  · rw [hx] at h
    obtain ⟨image', ha, hy⟩ := h
    rw [hy]
    exact hf a g' image' hx ha

/-- The common case: the first part leaves the image alone. -/
theorem Matches.bind_still {γ δ : Type} {rename : α → β} {rename' : γ → δ} {x : Compiling α}
    {y : Compiling β} {f : α → Compiling γ} {f' : β → Compiling δ} {g : Group}
    {after : γ → String → Prop} (h : Matches n image rename x y g (Still image))
    (hf : ∀ a g', Yields x g a g' → Matches n image rename' (f a) (f' (rename a)) g' after) :
    Matches n image rename' (x >>= f) (y >>= f') g after := by
  refine h.bind fun a g' image' hx ha => ?_
  obtain rfl : image' = image := ha
  exact hf a g' hx

theorem Matches.mono {rename : α → β} {x : Compiling α} {y : Compiling β} {g : Group}
    {after after' : α → String → Prop} (h : Matches n image rename x y g after)
    (ha : ∀ a g' image', Yields x g a g' → after a image' → after' a image') :
    Matches n image rename x y g after' := by
  rw [Matches] at h ⊢
  rcases hx : x.run g with ⟨e | a, g'⟩
  · rw [hx] at h
    exact h
  · rw [hx] at h
    obtain ⟨image', hafter, hy⟩ := h
    exact ⟨image', ha a g' image' hx hafter, hy⟩

end

/-! ## Steps that leave the image alone -/

/-- The node is open: it has its number, and a block is open. -/
structure Continuing (n : Nat) (g : Group) : Prop where
  /-- a block is open -/
  depth : 0 < g.optionalDepth
  /-- the number of the node is taken -/
  number : n < g.nodeCounter

theorem Continuing.advance {n : Nat} {g g' : Group} (h : Continuing n g) (hadv : g.Advances g') :
    Continuing n g' :=
  ⟨hadv.depth ▸ h.depth, Nat.lt_of_lt_of_le h.number hadv.counter⟩

section

variable {check : RegexCheck} {codec : Codec} {n : Nat} {image : String} {g : Group}

theorem wildcardToken_matches (name? : Option String) :
    Matches n image id (wildcardToken name?) (wildcardToken name?) g (Still image) := by
  cases name? with
  | none => exact .step rfl
  | some name =>
    rw [wildcardToken]
    split
    · exact .step rfl
    · exact .throw _ g

theorem subjectToken_matches (id? : Option Value) :
    Matches n image id (subjectToken codec id?) (subjectToken codec id?) g (Still image) := by
  cases id? with
  | none => exact .pure_still rfl g
  | some v =>
    cases v with
    | wildcard name? =>
      cases name? with
      | none => exact .pure_still rfl g
      | some name =>
        exact (wildcardToken_matches (some name)).bind_still fun _ g₁ _ => .pure_still rfl g₁
    | string s =>
      rw [subjectToken]
      split
      · exact .pure_still rfl g
      · exact .throw _ g
    | reference _ | iri _ => exact (Matches.lift _ g).bind_still fun _ g₁ _ => .pure_still rfl g₁
    | null | boolean _ | integer _ | float _ | timestamp _ | term _ | node _ | list _
      | custom _ _ => exact .throw _ g

theorem openNode_matches (hcont : Continuing n g) {entries : Node}
    (hnames : Unambiguous (Value.wildcardNamesEntries entries)) (inverse : Bool) :
    Matches n image id (openNode codec entries inverse) (openNode codec entries inverse) g
      (Still image) := by
  refine (Matches.step rfl).bind_still fun node g₁ hnode => ?_
  refine (subjectToken_matches _).bind_still fun token g₂ htoken => ?_
  obtain ⟨rfl, rfl⟩ := Yields.step_iff.1 hnode
  obtain ⟨rfl, rfl⟩ := subjectToken_spec htoken
  have hnode : g.nodeCounter ≠ n := Nat.ne_of_gt hcont.number
  have hsubject : (identifierToken? (Fields.get? Vocabulary.idKey entries)).getD
      (Group.subjectVariable g.nodeCounter) ≠ Group.subjectVariable n := by
    rcases hi : identifierToken? (Fields.get? Vocabulary.idKey entries) with _ | token
    · exact fun heq => hnode (subjectVariable_injective heq)
    · exact noSubject_identifier hnames hi n
  refine (Matches.step (Group.dissolve_registerNode hnode hsubject inverse)).bind_still ?_
  exact fun vars g₃ _ => .pure_still rfl g₃

theorem compileFilter_matches (entries : Node) (node : Nat) :
    Matches n image id (compileFilter check codec entries node)
      (compileFilter check codec entries node) g
      (Still image) := by
  refine (Matches.lift _ g).bind_still fun _ g₁ _ => ?_
  refine (Matches.step rfl).bind_still fun _ g₂ _ => ?_
  refine (Matches.lift _ g₂).bind_still fun _ g₃ _ => ?_
  exact .pure_still rfl g₃

theorem direction_matches {kind : PatternKey} {x : Compiling Direction}
    (hx : direction? kind = some x) : Matches n image id x x g (Still image) := by
  cases kind with
  | id | optional | operator _ => cases hx
  | inverse name =>
    obtain rfl := Option.some.inj hx
    exact (Matches.lift _ g).bind_still fun _ g₁ _ => .pure_still rfl g₁
  | wildcard name? =>
    obtain rfl := Option.some.inj hx
    exact (wildcardToken_matches name?).bind_still fun _ g₁ _ => .pure_still rfl g₁
  | property predicate =>
    obtain rfl := Option.some.inj hx
    exact .pure_still rfl g

/-! ## Edges -/

/-- The edges after the node was dissolved into the image. -/
def Edges.dissolve (n : Nat) (image : String) (edges : Edges) : Edges :=
  ⟨edges.triples.map (·.substitute (Group.subjectVariable n) image), edges.filters⟩

/-- Edges that are drawn from another subject do not change. -/
theorem Edges.Drawn.dissolve {low high : Nat} {subject : String} {edges : Edges}
    (h : edges.Drawn low high subject) (hlt : n < low)
    (hsubject : subject ≠ Group.subjectVariable n) (image : String) :
    edges.dissolve n image = edges := by
  have htoken : ∀ t ∈ edges.triples, ∀ token ∈ t.tokens, dissolved n image token = token := by
    intro t ht token hm
    rcases h.fresh t ht token hm with rfl | hf
    · exact dissolved_of_ne hsubject image
    · exact dissolved_of_fresh hf hlt image
  have htriples : edges.triples.map (·.substitute (Group.subjectVariable n) image) =
      edges.triples := by
    refine (List.map_congr_left fun t ht => ?_).trans (List.map_id' _)
    rw [substitute_eq_dissolved, htoken t ht _ (Triple.mem_tokens.2 (.inl rfl)),
      htoken t ht _ (Triple.mem_tokens.2 (.inr (.inl rfl))),
      htoken t ht _ (Triple.mem_tokens.2 (.inr (.inr rfl)))]
  rw [Edges.dissolve, htriples]

/-- Renaming edges puts one subject in the place of another, and respects their order. -/
structure Redirects (n : Nat) (subject subject' : String) (rename : Edges → Edges) : Prop where
  /-- no edges -/
  none : rename .none = .none
  /-- more edges -/
  append : ∀ a b : Edges, rename (a.append b) = (rename a).append (rename b)
  /-- an edge to another node -/
  single : ∀ (direction : Direction) (object : String) (filters : List BoundFilter),
    NoSubject direction.predicate → object ≠ Group.subjectVariable n →
    rename ⟨[direction.edge subject object], filters⟩ =
      ⟨[direction.edge subject' object], filters⟩

theorem redirects_id (n : Nat) (subject : String) : Redirects n subject subject id :=
  ⟨rfl, fun _ _ => rfl, fun _ _ _ _ _ => rfl⟩

theorem redirects_dissolve (n : Nat) (image : String) :
    Redirects n (Group.subjectVariable n) image (Edges.dissolve n image) where
  none := rfl
  append := by
    intro a b
    simp only [Edges.append, Edges.dissolve, List.map_append]
  single := by
    intro direction object filters hp ho
    rw [Edges.dissolve, List.map_singleton, Direction.edge, Direction.edge]
    split
    · rw [substitute_eq_dissolved, dissolved_of_ne ho, dissolved_of_ne (hp n),
        dissolved_subjectVariable]
    · rw [substitute_eq_dissolved, dissolved_of_ne ho, dissolved_of_ne (hp n),
        dissolved_subjectVariable]

theorem closeNode_matches (hopen : 0 < g.optionalDepth) {vars vars' : NodeVariables}
    (hs : vars'.subject = dissolved n image vars.subject) (hp : vars'.predicate = vars.predicate)
    (hpred : NoSubject vars.predicate) (ho : vars'.object = vars.object)
    (hobj : NoSubject vars.object) (edges : Edges) :
    Matches n image id (closeNode vars edges) (closeNode vars' (edges.dissolve n image)) g
      (Still image) := by
  have hclauses : ∀ ts : List Triple,
      (ts.map (·.substitute (Group.subjectVariable n) image)).map Clause.triple =
        (ts.map Clause.triple).map (Clause.substitute (Group.subjectVariable n) image) := by
    intro ts
    rw [List.map_map, List.map_map]
    rfl
  have hfilters : edges.filters.map Clause.filter =
      (edges.filters.map Clause.filter).map
        (Clause.substitute (Group.subjectVariable n) image) := by
    rw [List.map_map]
    rfl
  have harbitrary : (⟨vars'.subject, vars'.predicate, vars'.object⟩ : Triple) =
      (⟨vars.subject, vars.predicate, vars.object⟩ : Triple).substitute
        (Group.subjectVariable n) image := by
    rw [substitute_eq_dissolved, dissolved_of_ne (hpred n), dissolved_of_ne (hobj n), hs, hp, ho]
  refine Matches.change_still ?_
  rw [← Group.dissolve_append hopen, List.map_append, ← hfilters, ← hclauses, Edges.dissolve,
    List.isEmpty_map, harbitrary]
  split
  · rfl
  · rfl

/-! ## Branches -/

/-- A branch matches if its node does, and if demoting the node leaves an image under which one
holder becomes the other. -/
theorem demoted_matches {entries : Node} {holder holder' : String} {after : String → Prop}
    (hcont : Continuing n g) (hnames : Unambiguous (Value.wildcardNamesEntries entries))
    (hfilter : Filter.isFilter entries = false)
    (hnode : Matches n image id (compileNode check codec entries false)
      (compileNode check codec entries false)
      g.enterOptional fun compiled image' =>
        dissolved n (Triple.replaceToken compiled.subject holder' image') holder = holder' ∧
          after (Triple.replaceToken compiled.subject holder' image')) :
    Matches n image id (compileBranch check codec holder (.node entries))
      (compileBranch check codec holder' (.node entries)) g fun _ => after := by
  rw [compileBranch_node check codec _ hfilter, compileBranch_node check codec _ hfilter]
  have henter : (g.dissolve n image).enterOptional = g.enterOptional.dissolve n image := rfl
  refine (Matches.change_still henter).bind_still fun _ g₁ hstart => ?_
  obtain rfl := Yields.change_iff.1 hstart
  refine hnode.bind fun compiled g₂ image₂ hcompiled himage => ?_
  obtain ⟨hholder, hafter⟩ := himage
  obtain ⟨hadv, hc⟩ := advances_compileNode entries hnames hcompiled
  -- the node was numbered later, so demoting it does not touch the open one
  have hother : compiled.node ≠ n := by
    rw [hc.number]
    exact Nat.ne_of_gt hcont.number
  have hdemote := Group.dissolve_demote hother hc.registered (hc.fresh.ne hcont.number) rfl hholder
  refine (Matches.change_still hdemote).bind fun _ g₃ image₃ hdemoted himage₃ => ?_
  obtain rfl := Yields.change_iff.1 hdemoted
  obtain rfl := himage₃
  refine Matches.change (Group.dissolve_exitOptional ?_) hafter
  -- the block of the open node stays open behind the branch
  have hdepth : g₂.optionalDepth = g.optionalDepth + 1 := hadv.depth
  rw [Group.demote_optionalDepth, hdepth]
  exact Nat.succ_lt_succ hcont.depth

end

end Pattern

end LinkedData
