import LinkedData.Proofs.Pattern.FilterText

/-!
# What is wrong with a filter

A filter is read before it is written, so what is wrong with it should turn up before a variable
is made for it. Of the payloads that are read only two things can be wrong: a term with `@` that
stands for nothing, and a wildcard that a negation excludes, which no other operator lets pass
(`filters_checked_first`).
-/

namespace LinkedData

/-- What went wrong, if anything did. -/
def failure? {α : Type} : Except Error α → Option Error
  | .ok _ => none
  | .error e => some e

section

variable {α β : Type} {x : Except Error α} {e : Error}

theorem failure?_eq_some_iff : failure? x = some e ↔ x = .error e := by
  cases x with
  | ok a => exact ⟨nofun, nofun⟩
  | error e' =>
    exact ⟨fun h => congrArg _ (Option.some.inj h), fun h => congrArg _ (Except.error.inj h)⟩

/-- What is made of an outcome does not matter for what went wrong before. -/
theorem failure?_map (g : α → β) : failure? (do return g (← x)) = failure? x := by
  cases x <;> rfl

/-- Of two things that are done one after the other, the first one that goes wrong counts. -/
theorem failure?_pair {γ : Type} (y : Except Error β) (g : α → β → γ) :
    failure? (do
      let a ← x
      return g a (← y)) = (failure? x).or (failure? y) := by
  cases x with
  | ok a => exact failure?_map (g a)
  | error e => rfl

end

namespace Literal

/-- The name begins with `@` and stands for nothing. -/
def Unreserved (name : String) : Prop :=
  Text.startsWith "@" name = true ∧ reservedTerm? name = none

instance (name : String) : Decidable (Unreserved name) :=
  inferInstanceAs (Decidable (_ ∧ _))

theorem failure?_encodeTerm (name : String) : failure? (encodeTerm name) =
    if Unreserved name then some (.unknownOperator name) else none := by
  by_cases h : Unreserved name
  · rw [if_pos h, encodeTerm, if_pos h.1, h.2]
    rfl
  · rw [if_neg h, encodeTerm]
    split
    · rename_i hat
      split
      · rfl
      · rename_i hnone
        exact absurd ⟨hat, hnone⟩ h
    · split <;> rfl

end Literal

/-- Why a value has no text, if no kind is handled. -/
def Value.fault? : Value → Option Error
  | .term name => if Literal.Unreserved name then some (.unknownOperator name) else none
  | .node _ => some (.unsupported (.noLiteralForm .node))
  | .list _ => some (.unsupported (.noLiteralForm .list))
  | .wildcard _ => some (.unsupported (.noLiteralForm .wildcard))
  | _ => none

theorem Value.fault?_scalar {v : Value} {e : Error} (hscalar : v.isScalar = true)
    (h : v.fault? = some e) :
    ∃ name, v = .term name ∧ Literal.Unreserved name ∧ e = .unknownOperator name := by
  cases v with
  | term name =>
    obtain ⟨hname, he⟩ := Option.ite_some_none_eq_some.1 h
    exact ⟨name, rfl, hname, he.symm⟩
  | node _ | list _ | wildcard _ => cases hscalar
  | _ => cases h

theorem failure?_encodeLiteral (v : Value) :
    failure? (Codec.empty.encodeLiteral v) = v.fault? := by
  cases v with
  | term name => exact Literal.failure?_encodeTerm name
  | string s =>
    rw [Codec.encodeLiteral]
    split <;> rfl
  | _ => rfl

namespace Filter

/-! ## What is read -/

/-- The filter is well formed: comparisons have a sign, and compare with a scalar or with the
outcome of a filter; what matches is a regular expression; and something is joined. The one
exception is that a negation may exclude a wildcard. -/
inductive Regular (check : RegexCheck) : Filter → Prop where
  /-- a comparison with a scalar -/
  | compare {op : FilterOp} {v : Value} (hsymbol : op.symbol?.isSome = true)
      (hscalar : v.isScalar = true) : Regular check (.compare op v)
  /-- a comparison with the outcome of a filter -/
  | compareWith {op : FilterOp} {inner : Filter} (hsymbol : op.symbol?.isSome = true)
      (hinner : Regular check inner) : Regular check (.compareWith op inner)
  /-- a negation of a filter -/
  | not {inner : Filter} (hinner : Regular check inner) : Regular check (.not inner)
  /-- an exclusion of a wildcard, which has no text -/
  | exclusion (name? : Option String) : Regular check (.not (.compare .eq (.wildcard name?)))
  /-- a match of a regular expression -/
  | like {pattern : String} (hvalid : check pattern = none) : Regular check (.like pattern)
  /-- a conjunction -/
  | all {terms : List Filter} (hterms : terms ≠ [])
      (hregular : ∀ term ∈ terms, Regular check term) : Regular check (.all terms)
  /-- a disjunction -/
  | any {terms : List Filter} (hterms : terms ≠ [])
      (hregular : ∀ term ∈ terms, Regular check term) : Regular check (.any terms)

/-- What a part is read as is well formed. A comparison needs a sign for that. -/
def Part.Regular (check : RegexCheck) : (part : Part) → part.Outcome → Prop
  | .node _, f => f.Regular check
  | .comparand op _, f => op.symbol?.isSome = true → f.Regular check
  | .candidates _, fs | .terms _ _, fs => ∀ f ∈ fs, f.Regular check

section

variable {check : RegexCheck}

theorem regular_exclusion {v : Value} (hnode : ∀ entries, v ≠ .node entries)
    (hlist : ∀ items, v ≠ .list items) : Regular check (.not (.compare .eq v)) := by
  rcases v.node_or_list_or_wildcard_or_scalar with
    ⟨entries, rfl⟩ | ⟨items, rfl⟩ | ⟨name?, rfl⟩ | hscalar
  · exact absurd rfl (hnode entries)
  · exact absurd rfl (hlist items)
  · exact .exclusion name?
  · exact .not (.compare rfl hscalar)

theorem Reads.regular {part : Part} {r : part.Outcome} (h : Reads check part r) :
    part.Regular check r := by
  induction h with
  | comparison _ hsymbol _ ih => exact ih hsymbol
  | negation _ _ ih => exact .not ih
  | exclusion _ hnode hlist => exact regular_exclusion hnode hlist
  | like _ hvalid => exact .like hvalid
  | oneOf _ hvs inner ih => exact .any (inner.candidates_ne_nil hvs) ih
  | all _ hvs inner ih => exact .all (inner.terms_ne_nil hvs) ih
  | any _ hvs inner ih => exact .any (inner.terms_ne_nil hvs) ih
  | literal hscalar => exact fun hsymbol => .compare hsymbol hscalar
  | outcome _ ih => exact fun hsymbol => .compareWith hsymbol ih
  | noCandidates | noTerms => exact nofun
  | candidates _ _ ih₁ ih₂ => exact List.forall_mem_cons.2 ⟨ih₁ rfl, ih₂⟩
  | terms _ _ ih₁ ih₂ => exact List.forall_mem_cons.2 ⟨ih₁, ih₂⟩

/-- Every operator has a key. -/
theorem exists_key (op : FilterOp) : ∃ key, FilterOp.ofKey? key = some op := by
  cases op with
  | eq => exact ⟨"$eq", rfl⟩
  | neq => exact ⟨"$neq", rfl⟩
  | lt => exact ⟨"$lt", rfl⟩
  | lte => exact ⟨"$lte", rfl⟩
  | gt => exact ⟨"$gt", rfl⟩
  | gte => exact ⟨"$gte", rfl⟩
  | not => exact ⟨"$not", rfl⟩
  | like => exact ⟨"$like", rfl⟩
  | oneOf => exact ⟨"$in", rfl⟩
  | all => exact ⟨"$and", rfl⟩
  | any => exact ⟨"$or", rfl⟩

/-- Filters that are read from nodes are read from a list of them. -/
theorem exists_reads_terms (op : FilterOp) {fs : List Filter}
    (h : ∀ f ∈ fs, ∃ entries, Reads check (.node entries) f) :
    ∃ vs, Reads check (.terms op vs) fs := by
  induction fs with
  | nil => exact ⟨[], .noTerms⟩
  | cons f rest ih =>
    obtain ⟨⟨entries, hf⟩, hrest⟩ := List.forall_mem_cons.1 h
    obtain ⟨vs, hvs⟩ := ih hrest
    exact ⟨.node entries :: vs, .terms hf hvs⟩

/-- Filters that are joined are read from at least one value, if there is one of them. -/
theorem Reads.values_ne_nil {op : FilterOp} {vs : List Value} {fs : List Filter}
    (h : Reads check (.terms op vs) fs) (hfs : fs ≠ []) : vs ≠ [] := by
  cases h with
  | noTerms => exact absurd rfl hfs
  | terms _ _ => exact List.cons_ne_nil _ _

/-- Every well formed filter is read from some node. -/
theorem Regular.exists_reads {f : Filter} (h : f.Regular check) :
    ∃ entries, Reads check (.node entries) f := by
  induction h with
  | @compare op v hsymbol hscalar =>
    obtain ⟨key, hkey⟩ := exists_key op
    exact ⟨[(key, v)], .comparison hkey hsymbol (.literal hscalar)⟩
  | @compareWith op inner hsymbol _ ih =>
    obtain ⟨key, hkey⟩ := exists_key op
    obtain ⟨entries, hinner⟩ := ih
    exact ⟨[(key, .node entries)], .comparison hkey hsymbol (.outcome hinner)⟩
  | not _ ih =>
    obtain ⟨entries, hinner⟩ := ih
    exact ⟨[("$not", .node entries)], .negation rfl hinner⟩
  | exclusion name? => exact ⟨[("$not", .wildcard name?)], .exclusion rfl nofun nofun⟩
  | @like pattern hvalid => exact ⟨[("$like", .string pattern)], .like rfl hvalid⟩
  | all hterms _ ih =>
    obtain ⟨vs, hvs⟩ := exists_reads_terms .all ih
    exact ⟨[("$and", .list vs)], .all rfl (hvs.values_ne_nil hterms) hvs⟩
  | any hterms _ ih =>
    obtain ⟨vs, hvs⟩ := exists_reads_terms .any ih
    exact ⟨[("$or", .list vs)], .any rfl (hvs.values_ne_nil hterms) hvs⟩

/-- What can be read is what is well formed. -/
theorem exists_ofNode_iff {f : Filter} :
    (∃ entries, ofNode check entries = .ok f) ↔ f.Regular check := by
  constructor
  · rintro ⟨entries, h⟩
    exact (reads_of_read (.node entries) h).regular
  · intro h
    obtain ⟨entries, hreads⟩ := h.exists_reads
    exact ⟨entries, hreads.read⟩

end

/-! ## What is written -/

section

variable {check : RegexCheck} {codec : Codec} {token : String}

/-- What is wrong with a filter that is joined to others is what is wrong with its own text. -/
theorem failure?_renderTerms {fs : List Filter}
    (h : ∀ f ∈ fs, failure? (f.render codec token) =
      f.operands.findSome? fun v => failure? (codec.encodeLiteral v)) :
    failure? (renderTerms codec token fs) =
      (operandsOf fs).findSome? fun v => failure? (codec.encodeLiteral v) := by
  induction fs with
  | nil => rfl
  | cons f rest ih =>
    obtain ⟨hf, hrest⟩ := List.forall_mem_cons.1 h
    rw [renderTerms, failure?_pair, hf, ih hrest, operandsOf, List.findSome?_append]

/-- A well formed filter has a text if its operands have; otherwise the first one that has none
tells what is wrong. -/
theorem Regular.failure?_render {f : Filter} (h : f.Regular check) :
    failure? (f.render codec token) =
      f.operands.findSome? fun v => failure? (codec.encodeLiteral v) := by
  have hsingle : ∀ v, failure? (codec.encodeLiteral v) =
      [v].findSome? fun v => failure? (codec.encodeLiteral v) := by
    intro v
    rw [List.findSome?_cons]
    cases failure? (codec.encodeLiteral v) <;> rfl
  induction h with
  | @compare op v hsymbol _ =>
    obtain ⟨symbol, hsymbol⟩ := Option.isSome_iff_exists.1 hsymbol
    rw [render, hsymbol]
    exact (failure?_map _).trans (hsingle v)
  | @compareWith op inner hsymbol _ ih =>
    obtain ⟨symbol, hsymbol⟩ := Option.isSome_iff_exists.1 hsymbol
    rw [render, hsymbol]
    exact (failure?_map _).trans ih
  | not _ ih => exact (failure?_map _).trans ih
  | exclusion name? => rfl
  | like _ => rfl
  | all _ _ ih | any _ _ ih =>
    rw [render, operands]
    exact (failure?_map _).trans (failure?_renderTerms ih)

theorem forall_mem_operandsOf {p : Value → Prop} {fs : List Filter}
    (h : ∀ f ∈ fs, ∀ v ∈ f.operands, p v) : ∀ v ∈ operandsOf fs, p v := by
  induction fs with
  | nil => exact nofun
  | cons f rest ih =>
    obtain ⟨hf, hrest⟩ := List.forall_mem_cons.1 h
    exact List.forall_mem_append.2 ⟨hf, ih hrest⟩

/-- The operands of a well formed filter are scalars, or wildcards that a negation excludes. -/
theorem Regular.operands_scalar_or_wildcard {f : Filter} (h : f.Regular check) :
    ∀ v ∈ f.operands, v.isScalar = true ∨ ∃ name?, v = .wildcard name? := by
  induction h with
  | compare _ hscalar => exact List.forall_mem_singleton.2 (.inl hscalar)
  | compareWith _ _ ih | not _ ih => exact ih
  | exclusion name? => exact List.forall_mem_singleton.2 (.inr ⟨name?, rfl⟩)
  | like _ => exact nofun
  | all _ _ ih | any _ _ ih => exact forall_mem_operandsOf ih

end

/-! ## What is refused -/

/-- A filter is read first. If that goes wrong, nothing has happened to the group; otherwise it has
a variable more, whatever is wrong with the text. -/
theorem run_compileFilter (check : RegexCheck) (codec : Codec) (entries : Node) (node : Nat)
    (g : Group) :
    (Pattern.compileFilter check codec entries node).run g =
      match ofNode check entries with
      | .error e => (.error e, g)
      | .ok f =>
        ((f.render codec (g.freshFilterVariable node).1).map fun body =>
          ⟨(g.freshFilterVariable node).1, clauseText body⟩, (g.freshFilterVariable node).2) := by
  rw [Pattern.compileFilter]
  rcases ofNode check entries with e | f
  · rfl
  · dsimp only
    change (Compiling.lift (f.render codec (g.freshFilterVariable node).1) >>= fun body =>
      pure ⟨_, clauseText body⟩ : Compiling BoundFilter).run (g.freshFilterVariable node).2 = _
    cases f.render codec (g.freshFilterVariable node).1 <;> rfl

/-- **Filters are checked before they are written.** A node that cannot be read as a filter is
refused, and the group stays as it is. What is read is well formed: every comparison has a sign,
something is joined in every conjunction and disjunction, and every literal is a scalar, but for
the wildcards that negations exclude. If no kind is handled, the text fails exactly if a literal
has none, and with what is wrong with the first one of these: a term with `@` that stands for
nothing, or such a wildcard. Without wildcards nothing but such a term can be wrong. By then the
variable has been made. -/
theorem filters_checked_first (check : RegexCheck) (entries : Node) :
    (∀ node g e, ofNode check entries = .error e →
      (Pattern.compileFilter check .empty entries node).run g = (.error e, g)) ∧
    ∀ f, ofNode check entries = .ok f →
      f.Regular check ∧
      (∀ token e, f.render .empty token = .error e ↔ f.operands.findSome? Value.fault? = some e) ∧
      ((∀ name?, Value.wildcard name? ∉ f.operands) →
        (∀ v ∈ f.operands, v.isScalar = true) ∧
        ∀ token e, f.render .empty token = .error e →
          ∃ name, .term name ∈ f.operands ∧ Literal.Unreserved name ∧
            e = .unknownOperator name) ∧
      ∀ node g, (Pattern.compileFilter check .empty entries node).run g =
        ((f.render .empty (g.freshFilterVariable node).1).map fun body =>
          ⟨(g.freshFilterVariable node).1, clauseText body⟩, (g.freshFilterVariable node).2) := by
  refine ⟨fun node g e h => ?_, fun f h => ?_⟩
  · rw [run_compileFilter, h]
  have hregular : f.Regular check := (reads_of_read (.node entries) h).regular
  have hfault : ∀ token e, f.render .empty token = .error e ↔
      f.operands.findSome? Value.fault? = some e := by
    intro token e
    rw [← failure?_eq_some_iff, hregular.failure?_render, funext failure?_encodeLiteral]
  refine ⟨hregular, hfault, fun hnone => ?_, fun node g => ?_⟩
  · have hscalar : ∀ v ∈ f.operands, v.isScalar = true := by
      intro v hv
      rcases hregular.operands_scalar_or_wildcard v hv with hscalar | ⟨name?, rfl⟩
      · exact hscalar
      · exact absurd hv (hnone name?)
    refine ⟨hscalar, fun token e he => ?_⟩
    obtain ⟨v, hv, hwrong⟩ := List.exists_of_findSome?_eq_some ((hfault token e).1 he)
    obtain ⟨name, rfl, hname, rfl⟩ := Value.fault?_scalar (hscalar v hv) hwrong
    exact ⟨name, hv, hname, rfl⟩
  · rw [run_compileFilter, h]

/-- A negation of a filter with a comparison and a term that stands for nothing in it, and an
exclusion of a wildcard after it. -/
def faultyNode : Node :=
  [("$and", .list [
    .node [("$not", .node [("$in", .list [.integer 3, .term "@nobody"])])],
    .node [("$not", .wildcard (some "x"))]])]

/-- What the node is read as. -/
def faultyFilter : Filter :=
  .all [
    .not (.any [.compare .eq (.integer 3), .compare .eq (.term "@nobody")]),
    .not (.compare .eq (.wildcard (some "x")))]

/-- The term comes first. -/
theorem filters_checked_first_faultyNode :
    ofNode .lenient faultyNode = .ok faultyFilter ∧ faultyFilter.Regular .lenient ∧
      faultyFilter.render .empty "?F_0_0" = .error (.unknownOperator "@nobody") := by
  have hterm : Reads .lenient (.node [("$in", .list [.integer 3, .term "@nobody"])])
      (.any [.compare .eq (.integer 3), .compare .eq (.term "@nobody")]) :=
    .oneOf rfl (List.cons_ne_nil _ _)
      (.candidates (.literal rfl) (.candidates (.literal rfl) .noCandidates))
  have hwildcard : Reads .lenient (.node [("$not", .wildcard (some "x"))])
      (.not (.compare .eq (.wildcard (some "x")))) := .exclusion rfl nofun nofun
  have hread : ofNode .lenient faultyNode = .ok faultyFilter :=
    (Reads.all rfl (List.cons_ne_nil _ _)
      (.terms (.negation rfl hterm) (.terms hwildcard .noTerms))).read
  have hname : Literal.Unreserved "@nobody" := by decide +kernel
  have hfaulty : (Value.term "@nobody").fault? = some (.unknownOperator "@nobody") := by
    rw [Value.fault?, if_pos hname]
  have hoperands : faultyFilter.operands = [.integer 3, .term "@nobody", .wildcard (some "x")] :=
    rfl
  obtain ⟨hregular, hfault, -⟩ := (filters_checked_first .lenient faultyNode).2 faultyFilter hread
  refine ⟨hread, hregular, (hfault _ _).2 ?_⟩
  rw [hoperands, List.findSome?_cons, List.findSome?_cons, hfaulty]
  rfl

/-- A negation lets a wildcard pass, so it is found out only when the variable is made. A
comparison refuses it, and nothing has happened by then. -/
theorem excluded_wildcard_refused_late :
    ofNode .lenient [("$not", .wildcard (some "x"))] =
        .ok (.not (.compare .eq (.wildcard (some "x")))) ∧
      (∃ g : Group, g.filterCounters = [(0, 1)] ∧
        (Pattern.compileFilter .lenient .empty [("$not", .wildcard (some "x"))] 0).run .empty =
          (.error (.unsupported (.noLiteralForm .wildcard)), g)) ∧
      (Pattern.compileFilter .lenient .empty [("$neq", .wildcard (some "x"))] 0).run .empty =
        (.error (.invalidFilter (.comparand .wildcard)), .empty) := by
  have hread : Reads .lenient (.node [("$not", .wildcard (some "x"))])
      (.not (.compare .eq (.wildcard (some "x")))) := .exclusion rfl nofun nofun
  have hrefused : ofNode .lenient [("$neq", .wildcard (some "x"))] =
      .error (.invalidFilter (.comparand .wildcard)) := by
    have hop : operatorOf "$neq" = .ok .neq := operatorOf_eq_ok_iff.2 rfl
    rw [ofNode_singleton, hop]
    rfl
  refine ⟨hread.read, ⟨(Group.empty.freshFilterVariable 0).2, rfl, ?_⟩, ?_⟩
  · rw [run_compileFilter, show ofNode .lenient _ = _ from hread.read]
    rfl
  · rw [run_compileFilter, hrefused]

end Filter

end LinkedData
