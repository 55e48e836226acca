import LinkedData.Proofs.Literal.RoundTrip
import LinkedData.Proofs.Pattern.Condition
import LinkedData.Proofs.Pattern.Reading

/-!
# Texts of filters read back

The text of a filter determines what it says, whatever its operands hold: it is read as the
condition of the filter, and no further (`Filter.text_read_back`). Quotes, brackets and connectives
in texts and in regular expressions stand between quotes that they cannot close.

The condition of a filter keeps everything but two things. Of a literal it has the text, so values
that are written alike are not told apart; and what is joined to nothing is neither a conjunction
nor a disjunction.
-/

namespace LinkedData

open Literal

/-! ## Operands -/

/-- Nulls, truth values, whole numbers, texts and references. -/
def Value.isBasic : Value → Bool
  | .null | .boolean _ | .integer _ | .string _ | .reference _ => true
  | _ => false

/-- Such a value is written as a token whose end can be found. -/
theorem Value.exists_delimited (codec : Codec) {v : Value} (h : v.isBasic = true) :
    ∃ literal : Token, codec.encodeLiteral v = .ok literal.text ∧ literal.Delimited := by
  have hboolean : '>' ∉ Vocabulary.xsdBoolean.toList := by decide
  have hinteger : '>' ∉ Vocabulary.xsdInteger.toList := by decide
  have hlocator : ∀ r : Reference, '>' ∉ r.locator.toList :=
    Reference.not_mem_locator (by decide) (by decide)
  cases v with
  | null =>
    obtain ⟨htext, hquoted, -⟩ := codec.carries_null
    exact ⟨_, htext, hquoted, nofun⟩
  | boolean b =>
    obtain ⟨htext, hquoted, -⟩ := codec.carries_boolean b
    exact ⟨_, htext, hquoted, fun _ hd => Option.some.inj hd ▸ hboolean⟩
  | integer n =>
    obtain ⟨htext, hquoted, -⟩ := codec.carries_integer n
    exact ⟨_, htext, hquoted, fun _ hd => Option.some.inj hd ▸ hinteger⟩
  | string s =>
    rcases htag : Reference.ofTag? s with _ | r
    · refine ⟨.literal (escapeChars s.toList) none, ?_, quotable_escapeChars _, nofun⟩
      rw [Codec.encodeLiteral, htag, plain_eq_text]
    · refine ⟨.locator r.locator, ?_, hlocator r⟩
      rw [Codec.encodeLiteral, htag]
      rfl
  | reference r => exact ⟨_, (codec.carries_reference r).1, hlocator r⟩
  | _ => cases h

namespace Filter

mutual

/-- The literals that a filter compares with. -/
def operands : Filter → List Value
  | .compare _ v => [v]
  | .compareWith _ inner => operands inner
  | .not inner => operands inner
  | .like _ => []
  | .all terms => operandsOf terms
  | .any terms => operandsOf terms

/-- The literals that several filters compare with. -/
def operandsOf : List Filter → List Value
  | [] => []
  | term :: rest => operands term ++ operandsOf rest

end

/-! ## The condition of a filter -/

mutual

/-- What a filter on a variable says. -/
def condition (codec : Codec) (token : String) : Filter → Except Error Condition
  | .compare op v => do return .compare token op (← codec.encodeLiteral v)
  | .compareWith op inner => do return .compareWith token op (← condition codec token inner)
  | .not inner => do return .not (← condition codec token inner)
  | .like pattern => .ok (.like token pattern)
  | .all terms => do return .all (← conditions codec token terms)
  | .any terms => do return Condition.either (← conditions codec token terms)

/-- What several filters say. -/
def conditions (codec : Codec) (token : String) : List Filter → Except Error (List Condition)
  | [] => .ok []
  | term :: rest => do
    let first ← condition codec token term
    return first :: (← conditions codec token rest)

end

section

variable {check : RegexCheck} {codec : Codec} {token : String} {op : FilterOp} {v : Value}
  {f : Filter} {fs : List Filter}

/-- The filter has a text, which says its condition. -/
def Speaks (codec : Codec) (token : String) (f : Filter) : Prop :=
  ∃ text c, f.render codec token = .ok text ∧ f.condition codec token = .ok c ∧
    Condition.Written text c

/-- Each of the filters has a text, which says its condition. -/
def AllSpeak (codec : Codec) (token : String) (fs : List Filter) : Prop :=
  ∃ texts cs, renderTerms codec token fs = .ok texts ∧ conditions codec token fs = .ok cs ∧
    List.Forall₂ Condition.Written texts cs

theorem speaks_compare (htoken : IsVariableToken token) (hsymbol : op.symbol?.isSome = true)
    (hv : v.isBasic = true) : Speaks codec token (.compare op v) := by
  obtain ⟨symbol, hsymbol⟩ := Option.isSome_iff_exists.1 hsymbol
  obtain ⟨literal, htext, hliteral⟩ := Value.exists_delimited codec hv
  refine ⟨_, _, ?_, ?_, Condition.written_compare htoken hsymbol hliteral⟩
  · rw [render, hsymbol]
    exact bind_eq_ok_iff.2 ⟨_, htext, rfl⟩
  · rw [condition]
    exact bind_eq_ok_iff.2 ⟨_, htext, rfl⟩

theorem Speaks.compareWith (htoken : IsVariableToken token) (hsymbol : op.symbol?.isSome = true)
    (h : Speaks codec token f) : Speaks codec token (.compareWith op f) := by
  obtain ⟨symbol, hsymbol⟩ := Option.isSome_iff_exists.1 hsymbol
  obtain ⟨text, c, htext, hc, hwritten⟩ := h
  refine ⟨_, _, ?_, ?_, hwritten.compareWith htoken hsymbol⟩
  · rw [render, hsymbol]
    exact bind_eq_ok_iff.2 ⟨_, htext, rfl⟩
  · rw [condition]
    exact bind_eq_ok_iff.2 ⟨_, hc, rfl⟩

theorem Speaks.not (h : Speaks codec token f) : Speaks codec token (.not f) := by
  obtain ⟨text, c, htext, hc, hwritten⟩ := h
  refine ⟨_, _, ?_, ?_, hwritten.not⟩
  · rw [render]
    exact bind_eq_ok_iff.2 ⟨_, htext, rfl⟩
  · rw [condition]
    exact bind_eq_ok_iff.2 ⟨_, hc, rfl⟩

theorem speaks_like (htoken : IsVariableToken token) (pattern : String) :
    Speaks codec token (.like pattern) :=
  ⟨_, _, rfl, rfl, Condition.written_like htoken pattern⟩

theorem allSpeak_nil : AllSpeak codec token [] :=
  ⟨[], [], rfl, rfl, .nil⟩

theorem Speaks.cons (h : Speaks codec token f) (hfs : AllSpeak codec token fs) :
    AllSpeak codec token (f :: fs) := by
  obtain ⟨text, c, htext, hc, hwritten⟩ := h
  obtain ⟨texts, cs, htexts, hcs, hothers⟩ := hfs
  refine ⟨text :: texts, c :: cs, ?_, ?_, .cons hwritten hothers⟩
  · rw [renderTerms]
    exact both_eq_ok_iff.2 ⟨_, _, htext, htexts, rfl⟩
  · rw [conditions]
    exact both_eq_ok_iff.2 ⟨_, _, hc, hcs, rfl⟩

theorem renderTerms_ne_nil {texts : List String} (h : renderTerms codec token fs = .ok texts)
    (hfs : fs ≠ []) : texts ≠ [] := by
  obtain ⟨f, rest, rfl⟩ := List.exists_cons_of_ne_nil hfs
  obtain ⟨text, others, -, -, rfl⟩ := both_eq_ok_iff.1 h
  exact List.cons_ne_nil _ _

theorem AllSpeak.all (h : AllSpeak codec token fs) (hfs : fs ≠ []) :
    Speaks codec token (.all fs) := by
  obtain ⟨texts, cs, htexts, hcs, hwritten⟩ := h
  refine ⟨_, _, ?_, ?_, Condition.written_all hwritten (renderTerms_ne_nil htexts hfs)⟩
  · rw [render]
    exact bind_eq_ok_iff.2 ⟨_, htexts, rfl⟩
  · rw [condition]
    exact bind_eq_ok_iff.2 ⟨_, hcs, rfl⟩

theorem AllSpeak.any (h : AllSpeak codec token fs) (hfs : fs ≠ []) :
    Speaks codec token (.any fs) := by
  obtain ⟨texts, cs, htexts, hcs, hwritten⟩ := h
  refine ⟨_, _, ?_, ?_, Condition.written_either hwritten (renderTerms_ne_nil htexts hfs)⟩
  · rw [render]
    exact bind_eq_ok_iff.2 ⟨_, htexts, rfl⟩
  · rw [condition]
    exact bind_eq_ok_iff.2 ⟨_, hcs, rfl⟩

/-! ## Every filter that is read -/

/-- Where values are read, so are filters, one for each. -/
theorem Reads.candidates_ne_nil {vs : List Value} (h : Reads check (.candidates vs) fs)
    (hvs : vs ≠ []) : fs ≠ [] := by
  cases h with
  | noCandidates => exact absurd rfl hvs
  | candidates _ _ => exact List.cons_ne_nil _ _

theorem Reads.terms_ne_nil {vs : List Value} (h : Reads check (.terms op vs) fs)
    (hvs : vs ≠ []) : fs ≠ [] := by
  cases h with
  | noTerms => exact absurd rfl hvs
  | terms _ _ => exact List.cons_ne_nil _ _

/-- What a part is read as has a text that says its condition, if its operands are basic. A
comparison needs a sign for that. -/
def Part.Speaks (codec : Codec) (token : String) : (part : Part) → part.Outcome → Prop
  | .node _, f => (∀ v ∈ f.operands, v.isBasic = true) → Filter.Speaks codec token f
  | .comparand op _, f => op.symbol?.isSome = true → (∀ v ∈ f.operands, v.isBasic = true) →
      Filter.Speaks codec token f
  | .candidates _, fs | .terms _ _, fs =>
      (∀ v ∈ operandsOf fs, v.isBasic = true) → AllSpeak codec token fs

theorem Reads.speaks (htoken : IsVariableToken token) {part : Part} {r : part.Outcome}
    (h : Reads check part r) : part.Speaks codec token r := by
  induction h with
  | comparison _ hsymbol _ ih => exact ih hsymbol
  | negation _ _ ih => exact fun hbasic => (ih hbasic).not
  | exclusion _ _ _ =>
    intro hbasic
    exact (speaks_compare htoken rfl (hbasic _ (List.mem_singleton_self _))).not
  | like _ _ => exact fun _ => speaks_like htoken _
  | oneOf _ hvs inner ih => exact fun hbasic => (ih hbasic).any (inner.candidates_ne_nil hvs)
  | all _ hvs inner ih => exact fun hbasic => (ih hbasic).all (inner.terms_ne_nil hvs)
  | any _ hvs inner ih => exact fun hbasic => (ih hbasic).any (inner.terms_ne_nil hvs)
  | literal _ =>
    intro hsymbol hbasic
    exact speaks_compare htoken hsymbol (hbasic _ (List.mem_singleton_self _))
  | outcome _ ih => exact fun hsymbol hbasic => (ih hbasic).compareWith htoken hsymbol
  | noCandidates | noTerms => exact fun _ => allSpeak_nil
  | candidates _ _ ih₁ ih₂ =>
    intro hbasic
    obtain ⟨hfirst, hothers⟩ := List.forall_mem_append.1 hbasic
    exact (ih₁ rfl hfirst).cons (ih₂ hothers)
  | terms _ _ ih₁ ih₂ =>
    intro hbasic
    obtain ⟨hfirst, hothers⟩ := List.forall_mem_append.1 hbasic
    exact (ih₁ hfirst).cons (ih₂ hothers)

end

/-- **Filters are read back from their texts.** Take a node that is read as a filter whose literals
are nulls, truth values, whole numbers, texts and references, and a variable. Then the filter has a
text, and a reader that knows only the grammar finds its condition in the text, and the end of
the text, whatever follows. The same goes for the clause of the filter: nothing in an operand or in
a regular expression closes a bracket, ends the clause or adds a term. So no other filter has this
text, unless it says the same. -/
theorem text_read_back {check : RegexCheck} (codec : Codec) {entries : Node} {f : Filter}
    {token : String} (hread : ofNode check entries = .ok f)
    (hbasic : ∀ v ∈ f.operands, v.isBasic = true)
    (htoken : IsVariableToken token) :
    ∃ text c, f.render codec token = .ok text ∧ f.condition codec token = .ok c ∧
      (∀ rest, Condition.read? (text.toList ++ rest) = some (c, rest)) ∧
      (∀ rest, Condition.readClause? ((clauseText text).toList ++ rest) = some (c, rest)) ∧
      ∀ (others : Node) (g : Filter) (name : String), ofNode check others = .ok g →
        (∀ v ∈ g.operands, v.isBasic = true) → IsVariableToken name →
        g.render codec name = .ok text → g.condition codec name = .ok c := by
  have hspeaks : ∀ {entries : Node} {f : Filter} {token : String}, ofNode check entries = .ok f →
      (∀ v ∈ f.operands, v.isBasic = true) → IsVariableToken token → Speaks codec token f :=
    fun hread hbasic htoken => (reads_of_read (.node _) hread).speaks htoken hbasic
  obtain ⟨text, c, htext, hc, hwritten⟩ := hspeaks hread hbasic htoken
  refine ⟨text, c, htext, hc, hwritten.read?, hwritten.readClause?, ?_⟩
  intro others g name hother hplain hname hsame
  obtain ⟨again, d, hagain, hd, hsaid⟩ := hspeaks hother hplain hname
  -- the reader cannot find two conditions in one text
  obtain rfl : again = text := Except.ok.inj (hagain.symm.trans hsame)
  have hone : some (d, []) = some (c, []) := (hsaid.read? []).symm.trans (hwritten.read? [])
  obtain ⟨rfl, -⟩ := Prod.mk.inj (Option.some.inj hone)
  exact hd

/-- A regular expression and a text that try to leave their quotes and to add a term. -/
def hostileNode : Node :=
  [("$and", .list [
    .node [("$like", .string "\"\\)||x")],
    .node [("$not", .string "1\"))||(?F_0_0 = \"1\\")],
    .node [("$or", .list [.node [("$lt", .integer 3)]])]])]

/-- What the node is read as. -/
def hostileFilter : Filter :=
  .all [
    .like "\"\\)||x",
    .not (.compare .eq (.string "1\"))||(?F_0_0 = \"1\\")),
    .any [.compare .lt (.integer 3)]]

/-- The regular expression and the text stay where they are. -/
theorem text_read_back_hostileNode :
    ofNode .lenient hostileNode = .ok hostileFilter ∧
    (∀ v ∈ hostileFilter.operands, v.isBasic = true) ∧ IsVariableToken "?F_0_0" ∧
    ∃ text c, hostileFilter.render .empty "?F_0_0" = .ok text ∧
      hostileFilter.condition .empty "?F_0_0" = .ok c ∧
      (∀ rest, Condition.read? (text.toList ++ rest) = some (c, rest)) ∧
      (∀ rest, Condition.readClause? ((clauseText text).toList ++ rest) = some (c, rest)) ∧
      ∀ (others : Node) (g : Filter) (name : String), ofNode .lenient others = .ok g →
        (∀ v ∈ g.operands, v.isBasic = true) → IsVariableToken name →
        g.render .empty name = .ok text → g.condition .empty name = .ok c := by
  have hexcluded : Reads .lenient (.node [("$not", .string "1\"))||(?F_0_0 = \"1\\")])
      (.not (.compare .eq (.string "1\"))||(?F_0_0 = \"1\\"))) := .exclusion rfl nofun nofun
  have hjoined : Reads .lenient (.node [("$or", .list [.node [("$lt", .integer 3)]])])
      (.any [.compare .lt (.integer 3)]) :=
    .any rfl (List.cons_ne_nil _ _) (.terms (.comparison rfl rfl (.literal rfl)) .noTerms)
  have hread : ofNode .lenient hostileNode = .ok hostileFilter :=
    (Reads.all rfl (List.cons_ne_nil _ _)
      (.terms (.like rfl rfl) (.terms hexcluded (.terms hjoined .noTerms)))).read
  have hbasic : ∀ v ∈ hostileFilter.operands, v.isBasic = true := by
    intro v hv
    simp only [hostileFilter, operands, operandsOf, List.nil_append, List.append_nil,
      List.cons_append, List.mem_cons, List.not_mem_nil, or_false] at hv
    rcases hv with rfl | rfl <;> rfl
  have htoken : IsVariableToken "?F_0_0" := ⟨"F_0_0", rfl, by decide⟩
  exact ⟨hread, hbasic, htoken, text_read_back .empty hread hbasic htoken⟩

end Filter

end LinkedData
