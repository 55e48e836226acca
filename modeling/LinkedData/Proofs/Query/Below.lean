import LinkedData.Proofs.Query.Match

/-!
# Parts of compiling below an open node

While a node is open, other nodes are compiled below it. Each part of that matches the same
part without the node. A node behind an edge leaves the image of the open node alone, provided
that the pattern keeps the image (`Value.Keeps`). In an optional branch the image may move to
the subject of the branch; demoting the branch then passes it on to the holder.
-/

namespace LinkedData

namespace Pattern

open Compiling

/-- The image cannot be named by the part, or it is one of the tokens that the part keeps. -/
def Secure (tokens : List String) (image : String) (keeps : Prop) : Prop :=
  Unnamed image ∨ (image ∈ tokens ∧ keeps)

theorem Secure.imp {tokens : List String} {image : String} {p q : Prop}
    (h : Secure tokens image p) (hpq : p → q) : Secure tokens image q :=
  Or.imp_right (fun h => ⟨h.1, hpq h.2⟩) h

/-- After the part, the image is the same, or it is the holder's subject and a branch that is
joined to the holder was named by it. -/
def Moved (image holder : String) (joins : Prop) (image' : String) : Prop :=
  image' = image ∨ (image' = holder ∧ joins)

theorem Moved.imp {image holder image' : String} {p q : Prop}
    (h : Moved image holder p image') (hpq : p → q) : Moved image holder q image' :=
  Or.imp_right (fun h => ⟨h.1, hpq h.2⟩) h

/-- A node that was compiled has an earlier token as its subject only if it is identified by
it. -/
theorem Compiled.named {entries : Node} {token : String} {g g' : Group}
    {compiled : CompiledNode} (h : Compiled entries g compiled g')
    (htoken : Settled g.nodeCounter token) (heq : compiled.subject = token) :
    Named token entries := by
  have hsubject := h.subject
  rcases hi : identifierToken? (identifier? entries) with _ | named
  · -- a variable of its own has a later number than the token
    rw [hi, Option.getD_none, heq] at hsubject
    have hlt := htoken _ hsubject
    have hle := h.number
    omega
  · rw [hi, Option.getD_some, heq] at hsubject
    rw [Named, hi, hsubject]

/-- Demoting a branch passes the image on if it was the subject of the branch. -/
theorem Moved.demote {image holder subject image' : String} {branch : Node} {branches : List Node}
    (h : Moved image subject (Joins image branches) image')
    (hnamed : subject = image → Named image branch) :
    Moved image holder (Joins image (branch :: branches))
      (Triple.replaceToken subject holder image') := by
  rw [Triple.replaceToken]
  split
  · rename_i heq
    refine .inr ⟨rfl, ?_⟩
    rcases h with rfl | ⟨-, hjoins⟩
    · exact ⟨branch, List.mem_cons_self, hnamed heq.symm⟩
    · exact hjoins.right [branch]
  · rename_i hne
    rcases h with rfl | ⟨rfl, -⟩
    · exact .inl rfl
    · exact absurd rfl hne

/-- What a part needs that is compiled for a holder: the image is secure; it may move to the
holder only if the holder's subject is then secure as well. -/
structure Ready (tokens : List String) (image holder : String) (keeps : Prop)
    (branches : List Node) : Prop where
  /-- the image is secure -/
  secure : Secure tokens image keeps
  /-- so is the subject of the holder -/
  holder : Joins image branches → Unnamed holder ∨ holder ∈ tokens
  /-- what cannot be named names no branch -/
  unjoined : ∀ token, Unnamed token → ¬ Joins token branches

theorem Ready.first {tokens : List String} {image holder : String} {p q : Prop}
    {bs bs' : List Node} (h : Ready tokens image holder (p ∧ q) (bs ++ bs')) :
    Ready tokens image holder p bs where
  secure := h.secure.imp And.left
  holder := fun hj => h.holder (hj.left bs')
  unjoined := fun token hun hj => h.unjoined token hun (hj.left bs')

/-- What follows the first part finds the image wherever it has moved. -/
theorem Ready.rest {tokens : List String} {image holder image' : String} {p q : Prop}
    {bs bs' : List Node} (h : Ready tokens image holder (p ∧ q) (bs ++ bs'))
    (hmoved : Moved image holder (Joins image bs) image') :
    Ready tokens image' holder q bs' := by
  have hunjoined : ∀ token, Unnamed token → ¬ Joins token bs' :=
    fun token hun hj => h.unjoined token hun (hj.right bs)
  rcases hmoved with rfl | ⟨rfl, hjoins⟩
  · exact ⟨h.secure.imp And.right, fun hj => h.holder (hj.right bs), hunjoined⟩
  · have hholder := h.holder (hjoins.left bs')
    refine ⟨?_, fun _ => hholder, hunjoined⟩
    rcases h.secure with hun | ⟨-, -, hq⟩
    · exact absurd (hjoins.left bs') (h.unjoined image hun)
    · exact hholder.imp_right fun hmem => ⟨hmem, hq⟩

theorem Moved.trans {image holder image₁ image₂ : String} {bs bs' : List Node}
    (h : Moved image holder (Joins image bs) image₁)
    (h' : Moved image₁ holder (Joins image₁ bs') image₂) :
    Moved image holder (Joins image (bs ++ bs')) image₂ := by
  rcases h with rfl | ⟨rfl, hjoins⟩
  · exact h'.imp fun hj => hj.right bs
  · rcases h' with rfl | ⟨rfl, -⟩
    · exact .inr ⟨rfl, hjoins.left bs'⟩
    · exact .inr ⟨rfl, hjoins.left bs'⟩

theorem Moved.settled {image holder image' : String} {p : Prop} {bound : Nat}
    (h : Moved image holder p image') (himage : Settled bound image)
    (hholder : Settled bound holder) : Settled bound image' := by
  rcases h with rfl | ⟨rfl, -⟩
  · exact himage
  · exact hholder

section

variable {check : RegexCheck} {codec : Codec} {n : Nat}

mutual

theorem compileObject_matches :
    ∀ (v : Value) ⦃node : Nat⦄ ⦃inverse : Bool⦄ ⦃g : Group⦄ ⦃image : String⦄ ⦃tokens : List String⦄,
    Continuing n g →
    Unambiguous v.wildcardNames → Settled g.nodeCounter image →
    Secure tokens image (v.Keeps tokens) →
    Matches n image id (compileObject check codec node inverse v)
      (compileObject check codec node inverse v) g
      (Still image)
  | v => by
    intro node inverse g image tokens hcont hnames himage hsecure
    rcases v.node_or_list_or_wildcard_or_scalar with
      ⟨entries, rfl⟩ | ⟨items, rfl⟩ | ⟨name?, rfl⟩ | hscalar
    · rw [Value.wildcardNames] at hnames
      rcases hfilter : Filter.isFilter entries with _ | _
      · rw [compileObject_node check codec node inverse hfilter]
        rw [Value.Keeps] at hsecure
        have hstill : Joins image (Value.joinedEntries entries) → Named image entries := by
          intro hjoins
          rcases hsecure with hun | ⟨hmem, hkeeps, -⟩
          · exact absurd hjoins (hun.not_joins hnames)
          · exact hkeeps image hmem hjoins
        have hself : Joins image (Value.joinedEntries entries) →
            ∀ token, Named token entries → token ∈ tokens := by
          intro hjoins token htoken
          rcases hsecure with hun | ⟨hmem, -, -⟩
          · exact absurd hjoins (hun.not_joins hnames)
          · obtain rfl : image = token :=
              Option.some.inj ((hstill hjoins).symm.trans htoken)
            exact hmem
        refine (compileNode_matches entries hcont hnames himage (hsecure.imp And.right)
          hself).bind fun compiled g₁ image₁ hcompiled hmoved => ?_
        obtain ⟨-, hc⟩ := advances_compileNode entries hnames hcompiled
        have hsame : image₁ = image := by
          rcases hmoved with rfl | ⟨rfl, hjoins⟩
          · rfl
          · rw [hc.subject, hstill hjoins, Option.getD_some]
        subst hsame
        exact .pure_still rfl g₁
      · rw [compileObject_filter check codec node inverse hfilter]
        exact (compileFilter_matches entries node).bind_still fun f g₁ _ => .pure_still rfl g₁
    · rw [compileObject]
      exact .throw _ g
    · rw [compileObject]
      exact (wildcardToken_matches name?).bind_still fun token g₁ _ => .pure_still rfl g₁
    · rw [compileObject_scalar check codec node inverse hscalar]
      exact (Matches.lift _ g).bind_still fun token g₁ _ => .pure_still rfl g₁
termination_by v => (sizeOf v, 0)

theorem compileNode_matches :
    ∀ (entries : List (String × Value)) ⦃inverse : Bool⦄ ⦃g : Group⦄ ⦃image : String⦄
    ⦃tokens : List String⦄, Continuing n g →
    Unambiguous (Value.wildcardNamesEntries entries) → Settled g.nodeCounter image →
    Secure tokens image (Value.KeepsEntries tokens entries) →
    (Joins image (Value.joinedEntries entries) →
      ∀ token, Named token entries → token ∈ tokens) →
    Matches n image id (compileNode check codec entries inverse)
      (compileNode check codec entries inverse) g
      fun compiled => Moved image compiled.subject (Joins image (Value.joinedEntries entries))
  | entries => by
    intro inverse g image tokens hcont hnames himage hsecure hself
    refine (openNode_matches hcont hnames inverse).bind_still fun opened g₁ hopen => ?_
    obtain ⟨node, vars⟩ := opened
    have hopened := opened_of_openNode hopen
    have hadv := advances_openNode hnames hopen
    obtain ⟨hs, hf⟩ := hopened.settled hnames
    have hne : vars.subject ≠ Group.subjectVariable n := hf.ne hcont.number
    have hready : Ready tokens image vars.subject (Value.KeepsEntries tokens entries)
        (Value.joinedEntries entries) := by
      refine ⟨hsecure, fun hjoins => ?_, fun token hun => hun.not_joins hnames⟩
      rw [hopened.subject]
      rcases hi : identifierToken? (identifier? entries) with _ | token
      · exact .inl (unnamed_subjectVariable node)
      · exact .inr (hself hjoins token hi)
    refine (compileEntries_matches entries (hcont.advance hadv) hnames
      (himage.mono hadv.counter) hs hne hready).bind fun edges g₂ image₂ hedges hmoved => ?_
    obtain ⟨hadv₂, hdrawn⟩ := advances_compileEntries entries hnames hs hedges
    have hclose := closeNode_matches ((hcont.advance hadv).advance hadv₂).depth
      (dissolved_of_ne hne image₂).symm rfl
      (hopened.predicate ▸ noSubject_predicateVariable node) rfl
      (hopened.object ▸ noSubject_objectVariable node) edges
    rw [hdrawn.dissolve (Nat.lt_of_lt_of_le hcont.number hadv.counter) hne] at hclose
    refine hclose.bind_still fun _ g₃ _ => .pure rfl ?_ g₃
    exact hmoved
termination_by entries => (sizeOf entries, 1)

theorem compileObjects_matches :
    ∀ (items : List Value) ⦃node : Nat⦄ ⦃subject subject' : String⦄ ⦃rename : Edges → Edges⦄
    ⦃direction : Direction⦄ ⦃g : Group⦄ ⦃image : String⦄ ⦃tokens : List String⦄, Continuing n g →
    Unambiguous (Value.wildcardNamesItems items) → Settled g.nodeCounter image →
    Secure tokens image (Value.KeepsItems tokens items) → NoSubject direction.predicate →
    Redirects n subject subject' rename →
    Matches n image rename (compileObjects check codec node subject direction items)
      (compileObjects check codec node subject' direction items) g (Still image)
  | [] => by
    intro node subject subject' rename direction g image tokens hcont hnames himage hsecure hp
      hrename
    rw [compileObjects, compileObjects]
    exact .pure_still hrename.none.symm g
  | item :: rest => by
    intro node subject subject' rename direction g image tokens hcont hnames himage hsecure hp
      hrename
    rw [Value.wildcardNamesItems] at hnames
    rw [Value.KeepsItems] at hsecure
    rw [compileObjects, compileObjects]
    refine (compileObject_matches item hcont hnames.left himage (hsecure.imp And.left)).bind_still
      fun r g₁ hitem => ?_
    obtain ⟨object, filters⟩ := r
    obtain ⟨hadv, -, hobject⟩ := advances_compileObject item hnames.left hitem
    refine (compileObjects_matches rest (hcont.advance hadv) hnames.right
      (himage.mono hadv.counter) (hsecure.imp And.right) hp hrename).bind_still
      fun edges g₂ _ => ?_
    refine .pure_still ?_ g₂
    rw [hrename.append, hrename.single direction object filters hp (hobject.ne hcont.number)]
termination_by items => (sizeOf items, 0)

theorem compileProperty_matches :
    ∀ (v : Value) ⦃node : Nat⦄ ⦃subject subject' : String⦄ ⦃rename : Edges → Edges⦄
    ⦃direction : Direction⦄ ⦃g : Group⦄ ⦃image : String⦄ ⦃tokens : List String⦄, Continuing n g →
    Unambiguous v.wildcardNames → Settled g.nodeCounter image →
    Secure tokens image (v.Keeps tokens) → NoSubject direction.predicate →
    Redirects n subject subject' rename →
    Matches n image rename (compileProperty check codec node subject direction v)
      (compileProperty check codec node subject' direction v) g (Still image)
  | v => by
    intro node subject subject' rename direction g image tokens hcont hnames himage hsecure hp
      hrename
    rw [compileProperty.eq_def, compileProperty.eq_def]
    split
    · rw [Value.wildcardNames] at hnames
      rw [Value.Keeps] at hsecure
      exact compileObjects_matches _ hcont hnames himage hsecure hp hrename
    · refine (compileObject_matches v hcont hnames himage hsecure).bind_still fun r g₁ hitem => ?_
      obtain ⟨object, filters⟩ := r
      obtain ⟨hadv, -, hobject⟩ := advances_compileObject v hnames hitem
      exact .pure_still
        (hrename.single direction object filters hp (hobject.ne hcont.number)).symm g₁
termination_by v => (sizeOf v, 1)

theorem compileBranch_matches :
    ∀ (v : Value) ⦃subject : String⦄ ⦃g : Group⦄ ⦃image : String⦄ ⦃tokens : List String⦄,
    Continuing n g →
    Unambiguous v.wildcardNames → Settled g.nodeCounter image →
    subject ≠ Group.subjectVariable n →
    Ready tokens image subject (v.KeepsBranch tokens) v.joined →
    Matches n image id (compileBranch check codec subject v) (compileBranch check codec subject v) g
      fun _ => Moved image subject (Joins image v.joined)
  | v => by
    intro subject g image tokens hcont hnames himage hne hready
    rcases v.node_or_not with ⟨entries, rfl⟩ | hnode
    · rw [Value.wildcardNames] at hnames
      rw [Value.KeepsBranch, Value.joined] at hready
      rw [Value.joined]
      rcases hfilter : Filter.isFilter entries with _ | _
      · have hcont₁ : Continuing n g.enterOptional := ⟨Nat.succ_pos _, hcont.number⟩
        have hsecure : Secure (tokensInside tokens entries) image
            (Value.KeepsEntries (tokensInside tokens entries) entries) :=
          hready.secure.imp_right fun h => ⟨mem_tokensInside h.1 entries, h.2⟩
        have hself : Joins image (Value.joinedEntries entries) →
            ∀ token, Named token entries → token ∈ tokensInside tokens entries := by
          intro hjoins token htoken
          rcases hready.secure with hun | ⟨hmem, -⟩
          · exact absurd hjoins (hun.not_joins hnames)
          · exact htoken.mem_tokensInside hmem hjoins
        apply demoted_matches hcont hnames hfilter
        refine (compileNode_matches entries hcont₁ hnames himage hsecure hself).mono
          fun compiled g₂ image₂ hcompiled hmoved => ?_
        obtain ⟨-, hc⟩ := advances_compileNode entries hnames hcompiled
        exact ⟨dissolved_of_ne hne _, hmoved.demote (hc.named himage)⟩
      · rw [compileBranch_filter check codec subject hfilter]
        exact .throw _ g
    · rw [compileBranch_other check codec subject hnode]
      exact .throw _ g
termination_by v => (sizeOf v, 0)

theorem compileBranches_matches :
    ∀ (branches : List Value) ⦃subject : String⦄ ⦃g : Group⦄ ⦃image : String⦄
    ⦃tokens : List String⦄, Continuing n g →
    Unambiguous (Value.wildcardNamesItems branches) → Settled g.nodeCounter image →
    Settled g.nodeCounter subject → subject ≠ Group.subjectVariable n →
    Ready tokens image subject (Value.KeepsBranches tokens branches)
      (Value.joinedItems branches) →
    Matches n image id (compileBranches check codec subject branches)
      (compileBranches check codec subject branches) g
      fun _ => Moved image subject (Joins image (Value.joinedItems branches))
  | [] => by
    intro subject g image tokens hcont hnames himage hs hne hready
    rw [compileBranches]
    exact .pure rfl (.inl rfl) g
  | branch :: rest => by
    intro subject g image tokens hcont hnames himage hs hne hready
    rw [Value.wildcardNamesItems] at hnames
    rw [Value.KeepsBranches, Value.joinedItems] at hready
    rw [compileBranches, Value.joinedItems]
    refine (compileBranch_matches branch hcont hnames.left himage hne hready.first).bind
      fun u g₁ image₁ hbranch hmoved => ?_
    have hadv := advances_compileBranch branch hnames.left hs hbranch
    refine (compileBranches_matches rest (hcont.advance hadv) hnames.right
      ((hmoved.settled himage hs).mono hadv.counter) (hs.mono hadv.counter) hne
      (hready.rest hmoved)).mono fun _ _ image₂ _ hmoved₂ => ?_
    exact hmoved.trans hmoved₂
termination_by branches => (sizeOf branches, 0)

theorem compileOptional_matches :
    ∀ (v : Value) ⦃subject : String⦄ ⦃g : Group⦄ ⦃image : String⦄ ⦃tokens : List String⦄,
    Continuing n g →
    Unambiguous v.wildcardNames → Settled g.nodeCounter image → Settled g.nodeCounter subject →
    subject ≠ Group.subjectVariable n →
    Ready tokens image subject (v.KeepsBranch tokens) v.joined →
    Matches n image id (compileOptional check codec subject v)
      (compileOptional check codec subject v) g
      fun _ => Moved image subject (Joins image v.joined)
  | v => by
    intro subject g image tokens hcont hnames himage hs hne hready
    rw [compileOptional.eq_def]
    split
    · rw [Value.wildcardNames] at hnames
      rw [Value.KeepsBranch, Value.joined] at hready
      rw [Value.joined]
      exact compileBranches_matches _ hcont hnames himage hs hne hready
    · exact compileBranch_matches v hcont hnames himage hne hready
termination_by v => (sizeOf v, 1)

theorem compileEntries_matches :
    ∀ (entries : List (String × Value)) ⦃node : Nat⦄ ⦃subject : String⦄ ⦃g : Group⦄ ⦃image : String⦄
    ⦃tokens : List String⦄,
    Continuing n g → Unambiguous (Value.wildcardNamesEntries entries) →
    Settled g.nodeCounter image → Settled g.nodeCounter subject →
    subject ≠ Group.subjectVariable n →
    Ready tokens image subject (Value.KeepsEntries tokens entries)
      (Value.joinedEntries entries) →
    Matches n image id (compileEntries check codec node subject entries)
      (compileEntries check codec node subject entries) g
      fun _ => Moved image subject (Joins image (Value.joinedEntries entries))
  | [] => by
    intro node subject g image tokens hcont hnames himage hs hne hready
    rw [compileEntries]
    exact .pure rfl (.inl rfl) g
  | (key, value) :: rest => by
    intro node subject g image tokens hcont hnames himage hs hne hready
    rw [Value.wildcardNamesEntries] at hnames
    rw [Value.KeepsEntries, Value.joinedEntries] at hready
    have hentry : Matches n image id (compileEntry check codec node subject key value)
        (compileEntry check codec node subject key value) g fun _ => Moved image subject
          (Joins image (if key = PatternKey.optionalKey then value.joined else [])) := by
      have hfirst := hready.first
      refine (Matches.lift _ g).bind_still fun kind g₀ hkind => ?_
      obtain ⟨hresolve, rfl⟩ := Yields.compiling_lift_iff.1 hkind
      rcases hdirection : direction? kind with _ | x
      · cases kind with
        | inverse _ | wildcard _ | property _ => cases hdirection
        | operator _ => exact .throw _ _
        | id => exact .pure rfl (.inl rfl) _
        | optional =>
          rw [if_pos (eq_optionalKey_of_resolve hresolve),
            if_pos (eq_optionalKey_of_resolve hresolve)] at hfirst
          rw [if_pos (eq_optionalKey_of_resolve hresolve)]
          refine (compileOptional_matches value hcont hnames.left.right himage hs hne
            hfirst).bind fun _ g₁ image₁ _ hmoved => ?_
          refine .pure rfl ?_ g₁
          exact hmoved
      · have hkey : key ≠ PatternKey.optionalKey := by
          refine ne_optionalKey_of_resolve hresolve ?_
          rintro rfl
          cases hdirection
        rw [if_neg hkey, if_neg hkey] at hfirst
        rw [id, compileKey_direction check codec node subject key value hdirection]
        refine (direction_matches hdirection).bind_still fun d g₁ hd => ?_
        obtain ⟨hadv, hp⟩ := advances_direction hnames.left.left hresolve hdirection hd
        exact (compileProperty_matches value (hcont.advance hadv) hnames.left.right
          (himage.mono hadv.counter) hfirst.secure hp (redirects_id n subject)).mono
          fun _ _ _ _ hstill => .inl hstill
    rw [compileEntries_cons, Value.joinedEntries]
    refine hentry.bind fun here g₁ image₁ hhere hmoved => ?_
    have hadv := advances_compileEntry hnames.left hs hhere
    refine (compileEntries_matches rest (hcont.advance hadv) hnames.right
      ((hmoved.settled himage hs).mono hadv.counter) (hs.mono hadv.counter) hne
      (hready.rest hmoved)).bind fun others g₂ image₂ _ hmoved₂ => ?_
    refine .pure rfl ?_ g₂
    exact hmoved.trans hmoved₂
termination_by entries => (sizeOf entries, 0)

end

end

end Pattern

end LinkedData
