import LinkedData.Pattern.Filter
import LinkedData.Proofs.Pattern.Key
import LinkedData.Proofs.Property

/-!
# How filters are read

`Filter.Reads` tells which filter a part of a pattern is read as. It has a constructor for each
operator and for each kind of operand, and none for what is refused, so a law of every filter
that is read is one induction. It holds of what the readers give and of nothing else
(`reads_iff`).
-/

namespace LinkedData

namespace Filter

/-- A key is an operator where a filter is read if it is one anywhere. -/
theorem operatorOf_eq_ok_iff {key : String} {op : FilterOp} :
    operatorOf key = .ok op ↔ FilterOp.ofKey? key = some op := by
  constructor
  · intro h
    obtain ⟨kind, hkind, h⟩ := bind_eq_ok_iff.1 h
    cases PatternKey.means_of_resolve hkind with
    | operator hop =>
      obtain rfl := Except.ok.inj h
      exact hop
    | id | optional | inverse _ | anonymous | named _ | property _ _ _ => cases h
  · intro h
    rw [operatorOf, PatternKey.resolve_operator h]
    rfl

theorem isFilter_singleton {key : String} {op : FilterOp} (h : FilterOp.ofKey? key = some op)
    (payload : Value) : isFilter [(key, payload)] = true := by
  rw [isFilter, h]
  rfl

/-- A filter is a node with a single key, which is an operator. -/
theorem isFilter_iff {entries : Node} :
    isFilter entries = true ↔
      ∃ key payload op, entries = [(key, payload)] ∧ FilterOp.ofKey? key = some op := by
  constructor
  · intro h
    unfold isFilter at h
    split at h
    · rename_i key payload
      obtain ⟨op, hop⟩ := Option.isSome_iff_exists.1 h
      exact ⟨key, payload, op, rfl, hop⟩
    · cases h
  · rintro ⟨key, payload, op, rfl, hop⟩
    exact isFilter_singleton hop payload

/-! ## Parts and what they are read as -/

/-- The parts of a filter, as they are read one after the other. -/
inductive Part where
  /-- a node -/
  | node (entries : Node)
  /-- what a comparison compares with -/
  | comparand (op : FilterOp) (v : Value)
  /-- values, one of which is to be met -/
  | candidates (vs : List Value)
  /-- filters that an operator joins -/
  | terms (op : FilterOp) (vs : List Value)

namespace Part

/-- What a part is read as. -/
abbrev Outcome : Part → Type
  | .node _ | .comparand _ _ => Filter
  | .candidates _ | .terms _ _ => List Filter

/-- Read a part. -/
def read (check : RegexCheck) : (part : Part) → Except Error part.Outcome
  | .node entries => ofNode check entries
  | .comparand op v => ofComparand check op v
  | .candidates vs => ofCandidates check vs
  | .terms op vs => ofTerms check op vs

/-- A bound on the parts that are still to come. What an operator is applied to is handed on as
it is. -/
noncomputable def weight : Part → Nat
  | .node entries => 2 * sizeOf entries
  | .comparand _ v => 2 * sizeOf v + 1
  | .candidates vs | .terms _ vs => 2 * sizeOf vs

end Part

/-- The part is read as the outcome. -/
inductive Reads (check : RegexCheck) : (part : Part) → part.Outcome → Prop where
  /-- a comparison -/
  | comparison {key : String} {op : FilterOp} {v : Value} {f : Filter}
      (hkey : FilterOp.ofKey? key = some op) (hsymbol : op.symbol?.isSome = true)
      (inner : Reads check (.comparand op v) f) : Reads check (.node [(key, v)]) f
  /-- a negation of a filter -/
  | negation {key : String} {entries : Node} {f : Filter}
      (hkey : FilterOp.ofKey? key = some .not) (inner : Reads check (.node entries) f) :
      Reads check (.node [(key, .node entries)]) (.not f)
  /-- any value but this one; a wildcard is refused later, since it has no text -/
  | exclusion {key : String} {v : Value} (hkey : FilterOp.ofKey? key = some .not)
      (hnode : ∀ entries, v ≠ .node entries) (hlist : ∀ items, v ≠ .list items) :
      Reads check (.node [(key, v)]) (.not (.compare .eq v))
  /-- a match of a regular expression -/
  | like {key pattern : String} (hkey : FilterOp.ofKey? key = some .like)
      (hvalid : check pattern = none) :
      Reads check (.node [(key, .string pattern)]) (.like pattern)
  /-- one of several values -/
  | oneOf {key : String} {vs : List Value} {fs : List Filter}
      (hkey : FilterOp.ofKey? key = some .oneOf) (hvs : vs ≠ [])
      (inner : Reads check (.candidates vs) fs) : Reads check (.node [(key, .list vs)]) (.any fs)
  /-- a conjunction -/
  | all {key : String} {vs : List Value} {fs : List Filter}
      (hkey : FilterOp.ofKey? key = some .all) (hvs : vs ≠ [])
      (inner : Reads check (.terms .all vs) fs) : Reads check (.node [(key, .list vs)]) (.all fs)
  /-- a disjunction -/
  | any {key : String} {vs : List Value} {fs : List Filter}
      (hkey : FilterOp.ofKey? key = some .any) (hvs : vs ≠ [])
      (inner : Reads check (.terms .any vs) fs) : Reads check (.node [(key, .list vs)]) (.any fs)
  /-- a comparison with a scalar -/
  | literal {op : FilterOp} {v : Value} (hscalar : v.isScalar = true) :
      Reads check (.comparand op v) (.compare op v)
  /-- a comparison with the outcome of a filter -/
  | outcome {op : FilterOp} {entries : Node} {f : Filter} (inner : Reads check (.node entries) f) :
      Reads check (.comparand op (.node entries)) (.compareWith op f)
  /-- no further candidate -/
  | noCandidates : Reads check (.candidates []) []
  /-- first one candidate, then the others -/
  | candidates {v : Value} {vs : List Value} {f : Filter} {fs : List Filter}
      (first : Reads check (.comparand .eq v) f) (others : Reads check (.candidates vs) fs) :
      Reads check (.candidates (v :: vs)) (f :: fs)
  /-- no further term -/
  | noTerms {op : FilterOp} : Reads check (.terms op []) []
  /-- first one term, then the others -/
  | terms {op : FilterOp} {entries : Node} {vs : List Value} {f : Filter} {fs : List Filter}
      (first : Reads check (.node entries) f) (others : Reads check (.terms op vs) fs) :
      Reads check (.terms op (.node entries :: vs)) (f :: fs)

/-! ## One operator at a time -/

variable {check : RegexCheck}

/-- A filter of an operator that is applied to a list with at least one element. -/
def ofListed (op : FilterOp) (read : List Value → Except Error Filter) : Value → Except Error Filter
  | .list (first :: rest) => read (first :: rest)
  | other => .error (.invalidFilter (listFault op other))

/-- The filter of an operator that is applied to a payload. -/
def ofPayload (check : RegexCheck) (op : FilterOp) (payload : Value) : Except Error Filter :=
  match op with
  | .not => ofNegated check payload
  | .like => ofLike check payload
  | .oneOf => ofListed .oneOf (fun vs => do return .any (← ofCandidates check vs)) payload
  | .all => ofListed .all (fun vs => do return .all (← ofTerms check .all vs)) payload
  | .any => ofListed .any (fun vs => do return .any (← ofTerms check .any vs)) payload
  | comparison => ofComparand check comparison payload

/-- A text is asked for as a regular expression if the engine takes it for one. -/
theorem ofLike_eq_ok_iff {v : Value} {f : Filter} :
    ofLike check v = .ok f ↔
      ∃ pattern, v = .string pattern ∧ check pattern = none ∧ f = .like pattern := by
  constructor
  · intro h
    cases v with
    | string pattern =>
      rw [ofLike] at h
      split at h
      · rename_i hvalid
        exact ⟨pattern, rfl, hvalid, (Except.ok.inj h).symm⟩
      · cases h
    | _ => cases h
  · rintro ⟨pattern, rfl, hvalid, rfl⟩
    rw [ofLike, hvalid]

theorem ofListed_eq_ok_iff {op : FilterOp} {read : List Value → Except Error Filter} {v : Value}
    {f : Filter} :
    ofListed op read v = .ok f ↔ ∃ vs, vs ≠ [] ∧ v = .list vs ∧ read vs = .ok f := by
  constructor
  · intro h
    unfold ofListed at h
    split at h
    · rename_i first rest
      exact ⟨first :: rest, List.cons_ne_nil _ _, rfl, h⟩
    · cases h
  · rintro ⟨vs, hvs, rfl, h⟩
    obtain ⟨first, rest, rfl⟩ := List.exists_cons_of_ne_nil hvs
    exact h

/-- What is made of the filters in the list does not matter for what is read. -/
theorem ofListed_map_eq_ok_iff {op : FilterOp} {read : List Value → Except Error (List Filter)}
    {g : List Filter → Filter} {v : Value} {f : Filter} :
    ofListed op (fun vs => do return g (← read vs)) v = .ok f ↔
      ∃ vs fs, vs ≠ [] ∧ v = .list vs ∧ read vs = .ok fs ∧ f = g fs := by
  rw [ofListed_eq_ok_iff]
  constructor
  · rintro ⟨vs, hvs, rfl, h⟩
    obtain ⟨fs, hfs, h⟩ := bind_eq_ok_iff.1 h
    exact ⟨vs, fs, hvs, rfl, hfs, (Except.ok.inj h).symm⟩
  · rintro ⟨vs, fs, hvs, rfl, hfs, rfl⟩
    exact ⟨vs, hvs, rfl, bind_eq_ok_iff.2 ⟨fs, hfs, rfl⟩⟩

theorem ofNode_singleton (key : String) (payload : Value) :
    ofNode check [(key, payload)] = (do ofPayload check (← operatorOf key) payload) := by
  rw [ofNode.eq_def]
  refine bind_congr fun op => ?_
  cases op with
  | oneOf | all | any =>
    cases payload with
    | list items => cases items <;> rfl
    | _ => rfl
  | _ => rfl

/-- A node is read as a filter if it has one key, which is an operator, and the operator can be
applied to what it holds. -/
theorem ofNode_eq_ok_iff {entries : Node} {f : Filter} :
    ofNode check entries = .ok f ↔ ∃ key payload op, entries = [(key, payload)] ∧
      FilterOp.ofKey? key = some op ∧ ofPayload check op payload = .ok f := by
  constructor
  · intro h
    rcases entries with _ | ⟨⟨key, payload⟩, _ | ⟨second, rest⟩⟩
    · cases h
    · rw [ofNode_singleton] at h
      obtain ⟨op, hop, h⟩ := bind_eq_ok_iff.1 h
      exact ⟨key, payload, op, rfl, operatorOf_eq_ok_iff.1 hop, h⟩
    · cases h
  · rintro ⟨key, payload, op, rfl, hkey, h⟩
    rw [ofNode_singleton]
    exact bind_eq_ok_iff.2 ⟨op, operatorOf_eq_ok_iff.2 hkey, h⟩

theorem ofPayload_comparison {op : FilterOp} (hsymbol : op.symbol?.isSome = true) (v : Value) :
    ofPayload check op v = ofComparand check op v := by
  cases op with
  | not | like | oneOf | all | any => cases hsymbol
  | _ => rfl

theorem ofComparand_scalar (op : FilterOp) {v : Value} (h : v.isScalar = true) :
    ofComparand check op v = .ok (.compare op v) := by
  cases v with
  | node _ | list _ | wildcard _ => cases h
  | _ => rfl

theorem ofNegated_exclusion {v : Value} (hnode : ∀ entries, v ≠ .node entries)
    (hlist : ∀ items, v ≠ .list items) : ofNegated check v = .ok (.not (.compare .eq v)) := by
  cases v with
  | node entries => exact absurd rfl (hnode entries)
  | list items => exact absurd rfl (hlist items)
  | _ => rfl

/-! ## The relation and the readers -/

/-- What the relation tells is read. -/
theorem Reads.read {part : Part} {r : part.Outcome} (h : Reads check part r) :
    part.read check = .ok r := by
  induction h with
  | comparison hkey hsymbol inner ih =>
    exact ofNode_eq_ok_iff.2 ⟨_, _, _, rfl, hkey, (ofPayload_comparison hsymbol _).trans ih⟩
  | negation hkey inner ih =>
    exact ofNode_eq_ok_iff.2 ⟨_, _, _, rfl, hkey, bind_eq_ok_iff.2 ⟨_, ih, rfl⟩⟩
  | exclusion hkey hnode hlist =>
    exact ofNode_eq_ok_iff.2 ⟨_, _, _, rfl, hkey, ofNegated_exclusion hnode hlist⟩
  | like hkey hvalid =>
    exact ofNode_eq_ok_iff.2 ⟨_, _, _, rfl, hkey, ofLike_eq_ok_iff.2 ⟨_, rfl, hvalid, rfl⟩⟩
  | oneOf hkey hvs inner ih | all hkey hvs inner ih | any hkey hvs inner ih =>
    refine ofNode_eq_ok_iff.2 ⟨_, _, _, rfl, hkey, ?_⟩
    rw [ofPayload]
    exact ofListed_map_eq_ok_iff.2 ⟨_, _, hvs, rfl, ih, rfl⟩
  | literal hscalar => exact ofComparand_scalar _ hscalar
  | outcome inner ih => exact bind_eq_ok_iff.2 ⟨_, ih, rfl⟩
  | noCandidates | noTerms => rfl
  | candidates first others ih₁ ih₂ | terms first others ih₁ ih₂ =>
    exact both_eq_ok_iff.2 ⟨_, _, ih₁, ih₂, rfl⟩

/-- What is read, the relation tells. -/
theorem reads_of_read :
    ∀ (part : Part) {r : part.Outcome}, part.read check = .ok r → Reads check part r
  | .node entries, r, h => by
    obtain ⟨key, payload, op, rfl, hkey, h⟩ := ofNode_eq_ok_iff.1 h
    cases op with
    | not =>
      rcases payload.node_or_not with ⟨entries, rfl⟩ | hnode
      · obtain ⟨f, hf, h⟩ := bind_eq_ok_iff.1 h
        obtain rfl := Except.ok.inj h
        exact .negation hkey (reads_of_read (.node entries) hf)
      · have hlist : ∀ items, payload ≠ .list items := by
          rintro items rfl
          cases h
        have hnode : ∀ entries, payload ≠ .node entries := by
          rintro entries rfl
          cases hnode
        rw [ofPayload, ofNegated_exclusion hnode hlist] at h
        obtain rfl := Except.ok.inj h
        exact .exclusion hkey hnode hlist
    | like =>
      obtain ⟨pattern, rfl, hvalid, rfl⟩ := ofLike_eq_ok_iff.1 h
      exact .like hkey hvalid
    | oneOf =>
      rw [ofPayload] at h
      obtain ⟨vs, fs, hvs, rfl, hfs, rfl⟩ := ofListed_map_eq_ok_iff.1 h
      exact .oneOf hkey hvs (reads_of_read (.candidates vs) hfs)
    | all =>
      rw [ofPayload] at h
      obtain ⟨vs, fs, hvs, rfl, hfs, rfl⟩ := ofListed_map_eq_ok_iff.1 h
      exact .all hkey hvs (reads_of_read (.terms .all vs) hfs)
    | any =>
      rw [ofPayload] at h
      obtain ⟨vs, fs, hvs, rfl, hfs, rfl⟩ := ofListed_map_eq_ok_iff.1 h
      exact .any hkey hvs (reads_of_read (.terms .any vs) hfs)
    | eq | neq | lt | lte | gt | gte =>
      exact .comparison hkey rfl (reads_of_read (.comparand _ payload) h)
  | .comparand op v, r, h => by
    rcases v.node_or_list_or_wildcard_or_scalar with
      ⟨entries, rfl⟩ | ⟨items, rfl⟩ | ⟨name?, rfl⟩ | hscalar
    · obtain ⟨f, hf, h⟩ := bind_eq_ok_iff.1 h
      obtain rfl := Except.ok.inj h
      exact .outcome (reads_of_read (.node entries) hf)
    · cases h
    · cases h
    · rw [Part.read, ofComparand_scalar op hscalar] at h
      obtain rfl := Except.ok.inj h
      exact .literal hscalar
  | .candidates [], r, h => by
    obtain rfl := Except.ok.inj h
    exact .noCandidates
  | .candidates (v :: vs), r, h => by
    obtain ⟨f, fs, hf, hfs, rfl⟩ := both_eq_ok_iff.1 h
    exact .candidates (reads_of_read (.comparand .eq v) hf) (reads_of_read (.candidates vs) hfs)
  | .terms op [], r, h => by
    obtain rfl := Except.ok.inj h
    exact .noTerms
  | .terms op (v :: vs), r, h => by
    cases v with
    | node entries =>
      obtain ⟨f, fs, hf, hfs, rfl⟩ := both_eq_ok_iff.1 h
      exact .terms (reads_of_read (.node entries) hf) (reads_of_read (.terms op vs) hfs)
    | _ => cases h
termination_by part => part.weight
decreasing_by
  all_goals
    subst_vars
    simp only [Part.weight, List.cons.sizeOf_spec, List.nil.sizeOf_spec, Prod.mk.sizeOf_spec,
      Value.node.sizeOf_spec, Value.list.sizeOf_spec]
    omega

/-- The relation holds of what is read, and of nothing else. -/
theorem reads_iff {part : Part} {r : part.Outcome} :
    Reads check part r ↔ part.read check = .ok r :=
  ⟨Reads.read, reads_of_read part⟩

/-- Only filters are read as filters. -/
theorem Reads.isFilter {entries : Node} {f : Filter} (h : Reads check (.node entries) f) :
    isFilter entries = true := by
  obtain ⟨key, payload, op, rfl, hkey, -⟩ := ofNode_eq_ok_iff.1 h.read
  exact isFilter_singleton hkey payload

/-! ## Filters that have a text -/

/-- What is made of an outcome does not matter for there being one. -/
theorem exists_ok_iff_of_map {α β : Type} {x : Except Error α} {g : α → β} :
    (∃ b, (do return g (← x)) = Except.ok b) ↔ ∃ a, x = .ok a := by
  constructor
  · rintro ⟨b, h⟩
    obtain ⟨a, ha, -⟩ := bind_eq_ok_iff.1 h
    exact ⟨a, ha⟩
  · rintro ⟨a, ha⟩
    exact ⟨g a, bind_eq_ok_iff.2 ⟨a, ha, rfl⟩⟩

section

variable {codec : Codec} {token : String} {op : FilterOp} {v : Value} {f : Filter}
  {fs : List Filter}

/-- The filter has a text. -/
def Renders (codec : Codec) (token : String) (f : Filter) : Prop :=
  ∃ text, f.render codec token = .ok text

/-- All of the filters have texts. -/
def RenderAll (codec : Codec) (token : String) (fs : List Filter) : Prop :=
  ∃ texts, renderTerms codec token fs = .ok texts

/-- Only operators that have a sign compare, whatever the operand is. -/
theorem exists_comparison_iff {operand : Except Error String} {e : Error} :
    (∃ text, (match op.symbol? with
      | none => .error e
      | some symbol => do return "(" ++ token ++ " " ++ symbol ++ " " ++ (← operand) ++ ")") =
        Except.ok text) ↔
      op.symbol?.isSome = true ∧ ∃ text, operand = .ok text := by
  rcases op.symbol? with _ | symbol
  · constructor
    · rintro ⟨text, h⟩
      cases h
    · rintro ⟨h, -⟩
      cases h
  · exact exists_ok_iff_of_map.trans (and_iff_right rfl).symm

theorem renders_compare_iff : Renders codec token (.compare op v) ↔
    op.symbol?.isSome = true ∧ ∃ text, codec.encodeLiteral v = .ok text := by
  rw [Renders, render]
  exact exists_comparison_iff

theorem renders_compareWith_iff : Renders codec token (.compareWith op f) ↔
    op.symbol?.isSome = true ∧ Renders codec token f := by
  rw [Renders, render]
  exact exists_comparison_iff

theorem renders_not_iff : Renders codec token (.not f) ↔ Renders codec token f := by
  rw [Renders, render]
  exact exists_ok_iff_of_map

theorem renders_like (pattern : String) : Renders codec token (.like pattern) :=
  ⟨_, rfl⟩

theorem renders_all_iff : Renders codec token (.all fs) ↔ RenderAll codec token fs := by
  rw [Renders, render]
  exact exists_ok_iff_of_map

theorem renders_any_iff : Renders codec token (.any fs) ↔ RenderAll codec token fs := by
  rw [Renders, render]
  exact exists_ok_iff_of_map

theorem renderAll_nil : RenderAll codec token [] :=
  ⟨[], rfl⟩

theorem renderAll_cons_iff :
    RenderAll codec token (f :: fs) ↔ Renders codec token f ∧ RenderAll codec token fs := by
  rw [RenderAll, renderTerms]
  constructor
  · rintro ⟨texts, h⟩
    obtain ⟨text, others, htext, hothers, -⟩ := both_eq_ok_iff.1 h
    exact ⟨⟨text, htext⟩, ⟨others, hothers⟩⟩
  · rintro ⟨⟨text, htext⟩, ⟨others, hothers⟩⟩
    exact ⟨_, both_eq_ok_iff.2 ⟨text, others, htext, hothers, rfl⟩⟩

end

end Filter

end LinkedData
