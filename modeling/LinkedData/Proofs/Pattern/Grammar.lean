import LinkedData.Proofs.Pattern.Reading
import LinkedData.Proofs.Query.Derivation
import LinkedData.Proofs.Query.Trail

/-!
# The language of patterns

`Pattern.Formed` is a grammar: it says which patterns are well-formed, phrase by phrase, and
mentions neither a group nor the order in which things are looked at. What is compiled is
well-formed, by induction on the run; what is well-formed is compiled, by induction on the grammar,
and in every group. Hence a pattern is compiled if and only if it is well-formed and no filter
(`exists_compile_iff`).
-/

namespace LinkedData

namespace Compiling

variable {α β : Type}

/-- The computation succeeds on every group. -/
def Succeeds (x : Compiling α) : Prop :=
  ∀ g, ∃ a g', Yields x g a g'

theorem Succeeds.pure (a : α) : Succeeds (Pure.pure a : Compiling α) :=
  fun g => ⟨a, g, Yields.pure_iff.2 ⟨rfl, rfl⟩⟩

theorem Succeeds.bind {x : Compiling α} {f : α → Compiling β} (hx : Succeeds x)
    (hf : ∀ a, Succeeds (f a)) : Succeeds (x >>= f) := by
  intro g
  obtain ⟨a, g₁, ha⟩ := hx g
  obtain ⟨b, g₂, hb⟩ := hf a g₁
  exact ⟨b, g₂, Yields.bind_iff.2 ⟨a, g₁, ha, hb⟩⟩

theorem Succeeds.step (f : Group → α × Group) : Succeeds (Compiling.step f) :=
  fun _ => ⟨_, _, Yields.step_iff.2 ⟨rfl, rfl⟩⟩

theorem Succeeds.change (f : Group → Group) : Succeeds (Compiling.change f) :=
  fun _ => ⟨(), _, Yields.change_iff.2 rfl⟩

theorem Succeeds.lift {r : Except Error α} {a : α} (h : r = .ok a) : Succeeds (Compiling.lift r) :=
  fun g => ⟨a, g, Yields.compiling_lift_iff.2 ⟨h, rfl⟩⟩

end Compiling

namespace Pattern

open Compiling

/-! ## The grammar -/

/-- The value can stand for the subject of a node. -/
inductive Identifies : Value → Prop where
  /-- a text that names a reference -/
  | name {s : String} {r : Reference} (hname : Reference.normalize? s = some r) :
      Identifies (.string s)
  /-- a reference -/
  | reference (r : Reference) : Identifies (.reference r)
  /-- a foreign locator -/
  | iri (locator : String) : Identifies (.iri locator)
  /-- anything -/
  | anonymous : Identifies (.wildcard none)
  /-- a variable, whose name is a word -/
  | named {name : String} (hword : Text.isWord name = true) : Identifies (.wildcard (some name))

/-- The key stands for edges. -/
inductive EdgeKey : String → Prop where
  /-- a property that is followed backwards -/
  | inverse {name predicate : String} (hname : name ≠ "")
      (hterm : Literal.encodeTerm name = .ok predicate) : EdgeKey (PatternKey.inverseMark ++ name)
  /-- any property -/
  | anonymous : EdgeKey "?"
  /-- a variable, whose name is a word -/
  | named {name : String} (hword : Text.isWord name = true) : EdgeKey ("?" ++ name)
  /-- a property -/
  | property {key predicate : String} (hdollar : Text.startsWith "$" key = false)
      (hquestion : Text.startsWith "?" key = false)
      (hterm : Literal.encodeTerm key = .ok predicate) : EdgeKey key

/-- What the grammar tells apart. -/
inductive Phrase where
  /-- a pattern -/
  | pattern (entries : Node)
  /-- an entry of a pattern -/
  | entry (key : String) (v : Value)
  /-- an optional branch -/
  | branch (v : Value)
  /-- what an edge leads to -/
  | object (v : Value)
  /-- a filter -/
  | filter (v : Value)
  /-- what a filter compares with -/
  | operand (v : Value)

/-- The phrase is well-formed. -/
inductive Formed (check : RegexCheck) (codec : Codec) : Phrase → Prop where
  /-- a pattern: each entry is well-formed, and its identifier can stand for a subject -/
  | pattern {entries : Node} (hid : ∀ v, identifier? entries = some v → Identifies v)
      (inner : ∀ entry ∈ entries, Formed check codec (.entry entry.1 entry.2)) :
      Formed check codec (.pattern entries)
  /-- the identifier of a pattern -/
  | identifier {v : Value} : Formed check codec (.entry Vocabulary.idKey v)
  /-- an optional branch, or a list of them -/
  | optional {v : Value} (inner : ∀ branch ∈ v.elements, Formed check codec (.branch branch)) :
      Formed check codec (.entry PatternKey.optionalKey v)
  /-- an edge, or one for each element of a list -/
  | edges {key : String} {v : Value} (hkey : EdgeKey key)
      (inner : ∀ object ∈ v.elements, Formed check codec (.object object)) :
      Formed check codec (.entry key v)
  /-- an optional branch is a pattern, and no filter -/
  | branch {entries : Node} (hfilter : Filter.isFilter entries = false)
      (inner : Formed check codec (.pattern entries)) : Formed check codec (.branch (.node entries))
  /-- an edge leads to a pattern -/
  | nested {entries : Node} (inner : Formed check codec (.pattern entries)) :
      Formed check codec (.object (.node entries))
  /-- an edge leads to a filter -/
  | filtered {v : Value} (inner : Formed check codec (.filter v)) : Formed check codec (.object v)
  /-- an edge leads to anything -/
  | anonymous : Formed check codec (.object (.wildcard none))
  /-- an edge leads to a variable, whose name is a word -/
  | named {name : String} (hword : Text.isWord name = true) :
      Formed check codec (.object (.wildcard (some name)))
  /-- an edge leads to a scalar that has a text -/
  | scalar {v : Value} {text : String} (hscalar : v.isScalar = true)
      (htext : codec.encodeLiteral v = .ok text) : Formed check codec (.object v)
  /-- a comparison -/
  | comparison {key : String} {op : FilterOp} {v : Value}
      (hkey : FilterOp.ofKey? key = some op) (hsymbol : op.symbol?.isSome = true)
      (inner : Formed check codec (.operand v)) : Formed check codec (.filter (.node [(key, v)]))
  /-- a negation of a filter -/
  | negation {key : String} {v : Value} (hkey : FilterOp.ofKey? key = some .not)
      (inner : Formed check codec (.filter v)) : Formed check codec (.filter (.node [(key, v)]))
  /-- any value but this scalar, which has a text -/
  | exclusion {key text : String} {v : Value} (hkey : FilterOp.ofKey? key = some .not)
      (hscalar : v.isScalar = true) (htext : codec.encodeLiteral v = .ok text) :
      Formed check codec (.filter (.node [(key, v)]))
  /-- a match of a regular expression -/
  | like {key pattern : String} (hkey : FilterOp.ofKey? key = some .like)
      (hvalid : check pattern = none) :
      Formed check codec (.filter (.node [(key, .string pattern)]))
  /-- one of several operands -/
  | oneOf {key : String} {vs : List Value} (hkey : FilterOp.ofKey? key = some .oneOf)
      (hvs : vs ≠ []) (inner : ∀ v ∈ vs, Formed check codec (.operand v)) :
      Formed check codec (.filter (.node [(key, .list vs)]))
  /-- all of several filters, or any of them -/
  | joined {key : String} {op : FilterOp} {vs : List Value} (hkey : FilterOp.ofKey? key = some op)
      (hop : op = .all ∨ op = .any) (hvs : vs ≠ [])
      (inner : ∀ v ∈ vs, Formed check codec (.filter v)) :
      Formed check codec (.filter (.node [(key, .list vs)]))
  /-- the operand is a scalar that has a text -/
  | literal {v : Value} {text : String} (hscalar : v.isScalar = true)
      (htext : codec.encodeLiteral v = .ok text) : Formed check codec (.operand v)
  /-- the operand is the outcome of a filter -/
  | outcome {v : Value} (inner : Formed check codec (.filter v)) : Formed check codec (.operand v)

/-! ## Tokens and keys -/

theorem succeeds_anonymous : Succeeds (wildcardToken none) :=
  Succeeds.step _

theorem succeeds_named {name : String} (hword : Text.isWord name = true) :
    Succeeds (wildcardToken (some name)) := by
  rw [wildcardToken, if_pos hword]
  exact Succeeds.step _

theorem identifies_of_subjectToken {codec : Codec} {v : Value} {token : Option String}
    {g g' : Group} (h : Yields (subjectToken codec (some v)) g token g') : Identifies v := by
  cases v with
  | wildcard name? =>
    cases name? with
    | none => exact .anonymous
    | some name =>
      obtain ⟨_, _, htoken, -⟩ := Yields.bind_iff.1 h
      cases makes_of_wildcardToken htoken with
      | named hword => exact .named hword
  | string s =>
    rw [subjectToken] at h
    rcases hname : Reference.normalize? s with _ | r
    · rw [hname] at h
      exact (Yields.throw_iff.1 h).elim
    · exact .name hname
  | reference r => exact .reference r
  | iri locator => exact .iri locator
  | null | boolean _ | integer _ | float _ | timestamp _ | term _ | node _ | list _
    | custom _ _ => exact (Yields.throw_iff.1 h).elim

theorem Identifies.succeeds {codec : Codec} {v : Value} (h : Identifies v) :
    Succeeds (subjectToken codec (some v)) := by
  cases h with
  | name hname =>
    rw [subjectToken, hname]
    exact Succeeds.pure _
  | reference r => exact (Succeeds.lift rfl).bind fun _ => .pure _
  | iri locator => exact (Succeeds.lift rfl).bind fun _ => .pure _
  | anonymous => exact Succeeds.pure _
  | named hword => exact (succeeds_named hword).bind fun _ => .pure _

theorem edgeKey_of_direction {key : String} {kind : PatternKey} {x : Compiling Direction}
    {d : Direction} {g g' : Group} (hkey : PatternKey.resolve key = .ok kind)
    (hx : direction? kind = some x) (h : Yields x g d g') : EdgeKey key := by
  cases PatternKey.means_of_resolve hkey with
  | id | optional | operator _ => cases hx
  | inverse hname =>
    cases turns_of_direction hx h with
    | inverse hterm => exact .inverse hname hterm
  | anonymous => exact .anonymous
  | named hname =>
    cases turns_of_direction hx h with
    | wildcard made =>
      cases makes_of_wildcardToken made with
      | named hword => exact .named hword
  | property hdollar hquestion hterm => exact .property hdollar hquestion hterm

/-- A key that stands for edges is classified as such, and its edge can be made. -/
theorem EdgeKey.direction {key : String} (h : EdgeKey key) :
    ∃ kind x, PatternKey.resolve key = .ok kind ∧ direction? kind = some x ∧ Succeeds x := by
  cases h with
  | inverse hname hterm =>
    exact ⟨_, _, PatternKey.resolve_inverse hname, rfl,
      (Succeeds.lift hterm).bind fun _ => .pure _⟩
  | anonymous =>
    exact ⟨_, _, PatternKey.resolve_of_means .anonymous, rfl,
      succeeds_anonymous.bind fun _ => .pure _⟩
  | @named name hword =>
    have hname : name ≠ "" := by
      rintro rfl
      cases hword
    exact ⟨_, _, PatternKey.resolve_of_means (.named hname), rfl,
      (succeeds_named hword).bind fun _ => .pure _⟩
  | property hdollar hquestion hterm =>
    exact ⟨_, _, PatternKey.resolve_property hdollar hquestion hterm, rfl, .pure _⟩

theorem EdgeKey.not_operator {key : String} (h : EdgeKey key) : FilterOp.ofKey? key = none := by
  obtain ⟨kind, x, hkey, hx, -⟩ := h.direction
  rcases hop : FilterOp.ofKey? key with _ | op
  · rfl
  · rw [PatternKey.resolve_operator hop] at hkey
    obtain rfl := Except.ok.inj hkey
    cases hx

/-- No entry of a pattern is an operator. -/
theorem Formed.not_operator {check : RegexCheck} {codec : Codec} {key : String} {v : Value}
    (h : Formed check codec (.entry key v)) : FilterOp.ofKey? key = none := by
  cases h with
  | identifier | optional _ => rfl
  | edges hkey _ => exact hkey.not_operator

/-- A well-formed pattern is never a filter. -/
theorem Formed.not_filter {check : RegexCheck} {codec : Codec} {entries : Node}
    (h : Formed check codec (.pattern entries)) :
    Filter.isFilter entries = false := by
  cases h with
  | pattern hid inner =>
    refine Bool.eq_false_iff.2 fun hfilter => ?_
    obtain ⟨key, payload, op, rfl, hop⟩ := Filter.isFilter_iff.1 hfilter
    rw [(inner (key, payload) List.mem_cons_self).not_operator] at hop
    cases hop

end Pattern

/-! ## Filters -/

namespace Filter

/-- The outcome of a part has a text. -/
def Part.Renders (codec : Codec) (token : String) : (part : Part) → part.Outcome → Prop
  | .node _, f | .comparand _ _, f => Filter.Renders codec token f
  | .candidates _, fs | .terms _ _, fs => RenderAll codec token fs

/-- What the part holds is well-formed. -/
def Part.Formed (check : RegexCheck) (codec : Codec) : Part → Prop
  | .node entries => Pattern.Formed check codec (.filter (.node entries))
  | .comparand _ v => Pattern.Formed check codec (.operand v)
  | .candidates vs => ∀ v ∈ vs, Pattern.Formed check codec (.operand v)
  | .terms _ vs => ∀ v ∈ vs, Pattern.Formed check codec (.filter v)

/-- What is read and has a text is well-formed. -/
theorem Reads.formed {check : RegexCheck} {codec : Codec} {token : String} {part : Part}
    {r : part.Outcome} (h : Reads check part r)
    (hr : part.Renders codec token r) : part.Formed check codec := by
  induction h with
  | comparison hkey hsymbol inner ih => exact .comparison hkey hsymbol (ih hr)
  | negation hkey inner ih => exact .negation hkey (ih (renders_not_iff.1 hr))
  | @exclusion key v hkey hnode hlist =>
    obtain ⟨text, htext⟩ := (renders_compare_iff.1 (renders_not_iff.1 hr)).2
    rcases v.node_or_list_or_wildcard_or_scalar with
      ⟨entries, rfl⟩ | ⟨items, rfl⟩ | ⟨name?, rfl⟩ | hscalar
    · exact absurd rfl (hnode entries)
    · exact absurd rfl (hlist items)
    · cases htext
    · exact .exclusion hkey hscalar htext
  | like hkey hvalid => exact .like hkey hvalid
  | oneOf hkey hvs inner ih => exact .oneOf hkey hvs (ih (renders_any_iff.1 hr))
  | all hkey hvs inner ih => exact .joined hkey (.inl rfl) hvs (ih (renders_all_iff.1 hr))
  | any hkey hvs inner ih => exact .joined hkey (.inr rfl) hvs (ih (renders_any_iff.1 hr))
  | literal hscalar =>
    obtain ⟨-, text, htext⟩ := renders_compare_iff.1 hr
    exact .literal hscalar htext
  | outcome inner ih => exact .outcome (ih (renders_compareWith_iff.1 hr).2)
  | noCandidates | noTerms => exact nofun
  | candidates first others ih₁ ih₂ | terms first others ih₁ ih₂ =>
    obtain ⟨hfirst, hothers⟩ := renderAll_cons_iff.1 hr
    exact List.forall_mem_cons.2 ⟨ih₁ hfirst, ih₂ hothers⟩

end Filter

namespace Pattern

open Compiling

/-! ## What is compiled is well-formed -/

theorem formed_of_compileFilter {check : RegexCheck} {codec : Codec} {entries : Node} {node : Nat}
    {g g' : Group} {filter : BoundFilter}
    (h : Yields (compileFilter check codec entries node) g filter g') :
    Formed check codec (.filter (.node entries)) := by
  obtain ⟨f, body, hread, hbody, -, -⟩ := compileFilter_spec h
  have hreads : Filter.Reads check (.node entries) f := Filter.reads_iff.2 hread
  exact hreads.formed ⟨body, hbody⟩

/-- What the part holds is well-formed. -/
def Task.Formed (check : RegexCheck) (codec : Codec) : Task → Prop
  | .node es _ => Pattern.Formed check codec (.pattern es)
  | .object _ _ v => Pattern.Formed check codec (.object v)
  | .objects _ _ _ vs => ∀ v ∈ vs, Pattern.Formed check codec (.object v)
  | .property _ _ _ v => ∀ object ∈ v.elements, Pattern.Formed check codec (.object object)
  | .branch _ v => Pattern.Formed check codec (.branch v)
  | .branches _ vs => ∀ v ∈ vs, Pattern.Formed check codec (.branch v)
  | .options _ v => ∀ branch ∈ v.elements, Pattern.Formed check codec (.branch branch)
  | .entries _ _ es => ∀ entry ∈ es, Pattern.Formed check codec (.entry entry.1 entry.2)

theorem identifies_of_openNode {codec : Codec} {entries : Node} {inverse : Bool}
    {opened : Nat × NodeVariables} {g g' : Group}
    (h : Yields (openNode codec entries inverse) g opened g') {v : Value}
    (hv : identifier? entries = some v) : Identifies v := by
  obtain ⟨node, g₁, -, h⟩ := Yields.bind_iff.1 h
  obtain ⟨id, g₂, hid, -⟩ := Yields.bind_iff.1 h
  rw [← identifier?, hv] at hid
  exact identifies_of_subjectToken hid

theorem Compiles.formed {check : RegexCheck} {codec : Codec} {task : Task} {g g' : Group}
    {r : task.Outcome} (h : Compiles check codec task g r g') : task.Formed check codec := by
  induction h with
  | node opened inner closed ih =>
    exact .pattern (fun v hv => identifies_of_openNode opened hv) ih
  | nested hfilter inner ih => exact .nested ih
  | filter hfilter run => exact .filtered (formed_of_compileFilter run)
  | wildcard run =>
    cases makes_of_wildcardToken run with
    | anonymous => exact .anonymous
    | named hword => exact .named hword
  | scalar hscalar hliteral => exact .scalar hscalar hliteral
  | noItems | noBranches | noEntries => exact nofun
  | items first others ih₁ ih₂ | branches first others ih₁ ih₂ =>
    exact List.forall_mem_cons.2 ⟨ih₁, ih₂⟩
  | list inner ih | several inner ih => exact ih
  | single hlist inner ih | one hlist inner ih =>
    rw [Task.Formed, Value.elements_single hlist]
    exact List.forall_mem_singleton.2 ih
  | branch hfilter inner ih => exact .branch hfilter ih
  | identifier hkey others ih =>
    cases PatternKey.means_of_resolve hkey
    exact List.forall_mem_cons.2 ⟨.identifier, ih⟩
  | optional hkey first others ih₁ ih₂ =>
    cases PatternKey.means_of_resolve hkey
    exact List.forall_mem_cons.2 ⟨.optional ih₁, ih₂⟩
  | edge hkey hx turned first others ih₁ ih₂ =>
    exact List.forall_mem_cons.2 ⟨.edges (edgeKey_of_direction hkey hx turned) ih₁, ih₂⟩

/-! ## What is well-formed is compiled -/

/-- The phrase is compiled, wherever it stands and whatever was compiled before it. -/
def Phrase.Compiled (check : RegexCheck) (codec : Codec) : Phrase → Prop
  | .pattern entries => ∀ inverse, Succeeds (compileNode check codec entries inverse)
  | .entry key v => ∀ node subject, Succeeds (compileEntry check codec node subject key v)
  | .branch v => ∀ subject, Succeeds (compileBranch check codec subject v)
  | .object v => ∀ node inverse, Succeeds (compileObject check codec node inverse v)
  | .filter v => ∃ entries f, v = .node entries ∧ Filter.Reads check (.node entries) f ∧
      ∀ token, f.Renders codec token
  | .operand v => ∀ op : FilterOp, op.symbol?.isSome = true →
      ∃ f, Filter.Reads check (.comparand op v) f ∧ ∀ token, f.Renders codec token

section

variable {check : RegexCheck} {codec : Codec}

theorem succeeds_compileObjects {vs : List Value}
    (h : ∀ v ∈ vs, Phrase.Compiled check codec (.object v)) (node : Nat) (subject : String)
    (direction : Direction) : Succeeds (compileObjects check codec node subject direction vs) := by
  induction vs with
  | nil => exact Succeeds.pure _
  | cons v rest ih =>
    obtain ⟨hv, hrest⟩ := List.forall_mem_cons.1 h
    rw [compileObjects]
    exact (hv node direction.inverse).bind fun _ => (ih hrest).bind fun _ => .pure _

theorem succeeds_compileProperty {v : Value}
    (h : ∀ object ∈ v.elements, Phrase.Compiled check codec (.object object)) (node : Nat)
    (subject : String) (direction : Direction) :
    Succeeds (compileProperty check codec node subject direction v) := by
  rcases v.list_or_not with ⟨items, rfl⟩ | hlist
  · exact succeeds_compileObjects h node subject direction
  · rw [Value.elements_single hlist] at h
    have hv := List.forall_mem_singleton.1 h
    rw [compileProperty_single check codec node subject direction hlist]
    exact (hv node direction.inverse).bind fun _ => .pure _

theorem succeeds_compileBranches {vs : List Value}
    (h : ∀ v ∈ vs, Phrase.Compiled check codec (.branch v)) (subject : String) :
    Succeeds (compileBranches check codec subject vs) := by
  induction vs with
  | nil => exact Succeeds.pure _
  | cons v rest ih =>
    obtain ⟨hv, hrest⟩ := List.forall_mem_cons.1 h
    rw [compileBranches]
    exact (hv subject).bind fun _ => ih hrest

theorem succeeds_compileOptional {v : Value}
    (h : ∀ branch ∈ v.elements, Phrase.Compiled check codec (.branch branch)) (subject : String) :
    Succeeds (compileOptional check codec subject v) := by
  rcases v.list_or_not with ⟨vs, rfl⟩ | hlist
  · exact succeeds_compileBranches h subject
  · rw [Value.elements_single hlist] at h
    rw [compileOptional_single check codec subject hlist]
    exact List.forall_mem_singleton.1 h subject

theorem succeeds_compileEntries {entries : Node}
    (h : ∀ entry ∈ entries, Phrase.Compiled check codec (.entry entry.1 entry.2)) (node : Nat)
    (subject : String) : Succeeds (compileEntries check codec node subject entries) := by
  induction entries with
  | nil => exact Succeeds.pure _
  | cons entry rest ih =>
    obtain ⟨hentry, hrest⟩ := List.forall_mem_cons.1 h
    rw [compileEntries_cons]
    exact (hentry node subject).bind fun _ => (ih hrest).bind fun _ => .pure _

theorem succeeds_compileNode {entries : Node}
    (hid : ∀ v, identifier? entries = some v → Identifies v)
    (h : ∀ entry ∈ entries, Phrase.Compiled check codec (.entry entry.1 entry.2)) (inverse : Bool) :
    Succeeds (compileNode check codec entries inverse) := by
  have hsubject : Succeeds (subjectToken codec (identifier? entries)) := by
    rcases hv : identifier? entries with _ | v
    · exact Succeeds.pure _
    · exact (hid v hv).succeeds
  have hopen : Succeeds (openNode codec entries inverse) :=
    (Succeeds.step _).bind fun _ => hsubject.bind fun _ => (Succeeds.step _).bind fun _ => .pure _
  refine hopen.bind fun opened => ?_
  refine (succeeds_compileEntries h opened.1 opened.2.subject).bind fun edges => ?_
  exact (Succeeds.change _).bind fun _ => .pure _

theorem succeeds_compileFilter {entries : Node} {f : Filter}
    (hread : Filter.Reads check (.node entries) f) (htext : ∀ token, f.Renders codec token)
    (node : Nat) : Succeeds (compileFilter check codec entries node) := by
  have hread : Filter.ofNode check entries = .ok f := Filter.reads_iff.1 hread
  rw [compileFilter, hread, lift, pure_bind]
  refine (Succeeds.step _).bind fun token => ?_
  obtain ⟨body, hbody⟩ := htext token
  exact (Succeeds.lift hbody).bind fun _ => .pure _

theorem succeeds_compileBranch {entries : Node}
    (hfilter : Filter.isFilter entries = false)
    (h : ∀ inverse, Succeeds (compileNode check codec entries inverse)) (subject : String) :
    Succeeds (compileBranch check codec subject (.node entries)) := by
  rw [compileBranch_node check codec subject hfilter]
  refine (Succeeds.change _).bind fun _ => (h false).bind fun compiled => ?_
  exact (Succeeds.change _).bind fun _ => .change _

theorem reads_candidates {vs : List Value}
    (h : ∀ v ∈ vs, Phrase.Compiled check codec (.operand v)) :
    ∃ fs, Filter.Reads check (.candidates vs) fs ∧ ∀ token, Filter.RenderAll codec token fs := by
  induction vs with
  | nil => exact ⟨[], .noCandidates, fun _ => Filter.renderAll_nil⟩
  | cons v rest ih =>
    obtain ⟨hv, hrest⟩ := List.forall_mem_cons.1 h
    obtain ⟨f, hf, htext⟩ := hv .eq rfl
    obtain ⟨fs, hfs, htexts⟩ := ih hrest
    exact ⟨f :: fs, .candidates hf hfs,
      fun token => Filter.renderAll_cons_iff.2 ⟨htext token, htexts token⟩⟩

theorem reads_terms {vs : List Value}
    (h : ∀ v ∈ vs, Phrase.Compiled check codec (.filter v)) (op : FilterOp) :
    ∃ fs, Filter.Reads check (.terms op vs) fs ∧ ∀ token, Filter.RenderAll codec token fs := by
  induction vs with
  | nil => exact ⟨[], .noTerms, fun _ => Filter.renderAll_nil⟩
  | cons v rest ih =>
    obtain ⟨hv, hrest⟩ := List.forall_mem_cons.1 h
    obtain ⟨entries, f, rfl, hf, htext⟩ := hv
    obtain ⟨fs, hfs, htexts⟩ := ih hrest
    exact ⟨f :: fs, .terms hf hfs,
      fun token => Filter.renderAll_cons_iff.2 ⟨htext token, htexts token⟩⟩

end

/-- What is well-formed is compiled, wherever it stands and whatever was compiled before it. -/
theorem Formed.compiled {check : RegexCheck} {codec : Codec} {phrase : Phrase}
    (h : Formed check codec phrase) :
    phrase.Compiled check codec := by
  induction h with
  | pattern hid inner ih => exact succeeds_compileNode hid ih
  | identifier => exact fun _ _ g => ⟨_, _, yields_compileEntry_id rfl⟩
  | optional inner ih =>
    intro node subject g
    obtain ⟨_, g', h⟩ := succeeds_compileOptional ih subject g
    exact ⟨_, g', yields_compileEntry_optional rfl h⟩
  | edges hkey inner ih =>
    intro node subject g
    obtain ⟨kind, x, hresolve, hx, hturns⟩ := hkey.direction
    obtain ⟨d, g₁, turned⟩ := hturns g
    obtain ⟨edges, g₂, h⟩ := succeeds_compileProperty ih node subject d g₁
    exact ⟨edges, g₂, yields_compileEntry_edge hresolve hx turned h⟩
  | branch hfilter inner ih => exact succeeds_compileBranch hfilter ih
  | nested inner ih =>
    intro node inverse
    rw [compileObject_node check codec node inverse inner.not_filter]
    exact (ih inverse).bind fun _ => .pure _
  | filtered inner ih =>
    intro node inverse
    obtain ⟨entries, f, rfl, hread, htext⟩ := ih
    have hfilter : Filter.isFilter entries = true := hread.isFilter
    rw [compileObject_filter check codec node inverse hfilter]
    exact (succeeds_compileFilter hread htext node).bind fun _ => .pure _
  | anonymous =>
    intro node inverse
    rw [compileObject]
    exact succeeds_anonymous.bind fun _ => .pure _
  | named hword =>
    intro node inverse
    rw [compileObject]
    exact (succeeds_named hword).bind fun _ => .pure _
  | scalar hscalar htext =>
    intro node inverse
    rw [compileObject_scalar check codec node inverse hscalar]
    exact (Succeeds.lift htext).bind fun _ => .pure _
  | comparison hkey hsymbol inner ih =>
    obtain ⟨f, hread, htext⟩ := ih _ hsymbol
    exact ⟨_, f, rfl, .comparison hkey hsymbol hread, htext⟩
  | negation hkey inner ih =>
    obtain ⟨entries, f, rfl, hread, htext⟩ := ih
    exact ⟨_, .not f, rfl, .negation hkey hread,
      fun token => Filter.renders_not_iff.2 (htext token)⟩
  | @exclusion key text v hkey hscalar htext =>
    refine ⟨_, _, rfl, .exclusion hkey ?_ ?_, fun token => ?_⟩
    · rintro entries rfl
      cases hscalar
    · rintro items rfl
      cases hscalar
    · exact Filter.renders_not_iff.2 (Filter.renders_compare_iff.2 ⟨rfl, text, htext⟩)
  | like hkey hvalid =>
    exact ⟨_, _, rfl, .like hkey hvalid, fun _ => Filter.renders_like _⟩
  | oneOf hkey hvs inner ih =>
    obtain ⟨fs, hread, htexts⟩ := reads_candidates ih
    exact ⟨_, .any fs, rfl, .oneOf hkey hvs hread,
      fun token => Filter.renders_any_iff.2 (htexts token)⟩
  | joined hkey hop hvs inner ih =>
    rcases hop with rfl | rfl
    · obtain ⟨fs, hread, htexts⟩ := reads_terms ih .all
      exact ⟨_, .all fs, rfl, .all hkey hvs hread,
        fun token => Filter.renders_all_iff.2 (htexts token)⟩
    · obtain ⟨fs, hread, htexts⟩ := reads_terms ih .any
      exact ⟨_, .any fs, rfl, .any hkey hvs hread,
        fun token => Filter.renders_any_iff.2 (htexts token)⟩
  | literal hscalar htext =>
    intro op hsymbol
    exact ⟨_, .literal hscalar,
      fun token => Filter.renders_compare_iff.2 ⟨hsymbol, _, htext⟩⟩
  | outcome inner ih =>
    intro op hsymbol
    obtain ⟨entries, f, rfl, hread, htext⟩ := ih
    exact ⟨.compareWith op f, .outcome hread,
      fun token => Filter.renders_compareWith_iff.2 ⟨hsymbol, htext token⟩⟩

/-- Patterns are compiled if they are well-formed and no filters, and otherwise they are refused. -/
theorem exists_compile_iff (check : RegexCheck) (codec : Codec) (pattern : Node) :
    (∃ g, compile check codec pattern = .ok g) ↔
      Formed check codec (.pattern pattern) ∧ Filter.isFilter pattern = false := by
  constructor
  · rintro ⟨g, h⟩
    obtain ⟨compiled, hrun⟩ := yields_of_compile h
    obtain ⟨hfilter, hcompiles⟩ := compiles_of_compileInto hrun
    exact ⟨hcompiles.formed, hfilter⟩
  · rintro ⟨hformed, hfilter⟩
    obtain ⟨compiled, g, h⟩ := hformed.compiled false .empty
    refine ⟨g, ?_⟩
    rw [compile, compileInto_eq check codec hfilter, h]
    rfl

end Pattern

end LinkedData
