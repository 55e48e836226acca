import LinkedData.Proofs.Literal.Wire

/-!
# Tokens and separators

In a document tokens are joined by separators, each of which begins with a space. A quoted literal
ends where it ends. Any other token is written as it is, so if it holds the separator, with the
beginning of a token right behind, it can pass for several tokens (`Divided`). If neither of two
tokens does, and the texts that follow them are of the right form (`Gap`), then the texts as a
whole are equal only if the tokens are (`Wire.eq_of_append`).
-/

namespace LinkedData

namespace Literal

/-- What a token begins with. -/
def tokenStarts : List String :=
  [":", "<", "\"", "rdf:type"]

/-- Some token begins the text, as far as its first characters tell. -/
def Begins (text : List Char) : Prop :=
  ∃ start ∈ tokenStarts, start.toList <+: text

/-- The text holds the separator with the beginning of a token right behind it. -/
def Divided (separator text : String) : Prop :=
  ∃ start ∈ tokenStarts, (separator ++ start).toList <:+: text.toList

instance (separator text : String) : Decidable (Divided separator text) :=
  inferInstanceAs (Decidable (∃ start ∈ tokenStarts, _))

/-- The token is a quoted literal, or the separator does not divide it. -/
def Whole (separator token : String) : Prop :=
  Text.startsWith "\"" token = true ∨ ¬ Divided separator token

instance (separator token : String) : Decidable (Whole separator token) :=
  inferInstanceAs (Decidable (_ ∨ _))

theorem Begins.append {text : List Char} (h : Begins text) (rest : List Char) :
    Begins (text ++ rest) := by
  obtain ⟨start, hstart, hopens⟩ := h
  exact ⟨start, hstart, hopens.trans (List.prefix_append _ _)⟩

theorem Wire.begins {token : String} (h : Wire token) : Begins token.toList := by
  cases h with
  | literal _ _ => exact ⟨"\"", by decide, by simp [Token.text]⟩
  | locator text => exact ⟨"<", by decide, by simp [bracketed]⟩
  | name text => exact ⟨":", by decide, by simp⟩
  | type => exact ⟨"rdf:type", by decide, List.prefix_rfl⟩

theorem space_not_mem_start : ∀ start ∈ tokenStarts, ' ' ∉ start.toList := by
  decide

/-- What a token begins with does not reach past a space. -/
theorem Begins.of_append_space {z y : List Char} (h : Begins (z ++ ' ' :: y)) : Begins z := by
  obtain ⟨start, hstart, hopens⟩ := h
  refine ⟨start, hstart, ?_⟩
  rcases List.prefix_or_prefix_of_prefix hopens (List.prefix_append z _) with hz | ⟨rest, hrest⟩
  · exact hz
  · -- otherwise the beginning of the token would hold the space
    rw [← hrest, List.prefix_append_right_inj] at hopens
    rcases rest with _ | ⟨c, rest⟩
    · exact ⟨[], by rw [List.append_nil, ← hrest, List.append_nil]⟩
    · obtain ⟨rfl, -⟩ := List.cons_prefix_cons.1 hopens
      refine absurd ?_ (space_not_mem_start start hstart)
      rw [← hrest]
      exact List.mem_append_right _ List.mem_cons_self

/-! ## The end of a token -/

/-- The two texts may follow a token. If one is longer, what it has in front of the other begins
with the separator, and another token follows. -/
def Gap (separator : String) (u w : List Char) : Prop :=
  ∀ z, z ≠ [] → u = z ++ w → ∃ start ∈ tokenStarts, (separator ++ start).toList <+: z

theorem gap_space {x : List Char} (hx : Begins x) (y : List Char) :
    Gap " " (' ' :: x) (' ' :: y) := by
  intro z hz h
  rcases z with _ | ⟨c, z⟩
  · exact absurd rfl hz
  · obtain ⟨rfl, rfl⟩ := List.cons.inj h
    obtain ⟨start, hstart, hopens⟩ := hx.of_append_space
    refine ⟨start, hstart, ?_⟩
    rw [String.toList_append]
    exact List.cons_prefix_cons.2 ⟨rfl, hopens⟩

/-- No token begins with a point. -/
theorem not_begins_point (cs : List Char) : ¬ Begins ('.' :: cs) := by
  rintro ⟨start, hstart, hopens⟩
  have hother : start.toList.head? ≠ some '.' ∧ start.toList ≠ [] := by
    clear hopens
    revert start
    decide
  rcases hlist : start.toList with _ | ⟨c, rest⟩
  · exact hother.2 hlist
  · rw [hlist] at hopens hother
    exact hother.1 (congrArg some (List.cons_prefix_cons.1 hopens).1)

theorem eq_of_append_space {xs ys us ws : List Char} (hxs : ' ' ∉ xs) (hys : ' ' ∉ ys)
    (h : xs ++ ' ' :: us = ys ++ ' ' :: ws) : xs = ys := by
  have hrun : ∀ {cs rest : List Char}, ' ' ∉ cs →
      (cs ++ ' ' :: rest).takeWhile (· != ' ') = cs := by
    intro cs rest hcs
    have hstops : Text.Stops (· != ' ') (' ' :: rest) := by
      intro c hc
      obtain rfl := Option.some.inj hc
      rfl
    rw [hstops.takeWhile_append, Text.takeWhile_run]
    intro c hc
    rw [bne_iff_ne]
    rintro rfl
    exact hcs hc
  rw [← hrun hxs, h, hrun hys]

/-- A quoted literal ends where it ends, whatever is quoted. -/
theorem Quotable.eq_of_append {quoted quoted' : List Char} {datatype datatype' : Option String}
    (hq : Quotable quoted) (hq' : Quotable quoted')
    (hspace : ' ' ∉ (Token.datatypeText datatype).toList)
    (hspace' : ' ' ∉ (Token.datatypeText datatype').toList) {u w : List Char}
    (h : (Token.text (.literal quoted datatype)).toList ++ ' ' :: u =
      (Token.text (.literal quoted' datatype')).toList ++ ' ' :: w) :
    Token.text (.literal quoted datatype) = Token.text (.literal quoted' datatype') := by
  have hlist : ∀ (cs : List Char) (d : Option String) (rest : List Char),
      (Token.text (.literal cs d)).toList ++ rest =
        '"' :: (cs ++ '"' :: ((Token.datatypeText d).toList ++ rest)) := by
    intro cs d rest
    simp [Token.text]
  rw [hlist, hlist] at h
  -- the first quote that is not escaped ends the one text and the other
  have hsplit := congrArg Literal.splitQuote (List.cons.inj h).2
  rw [hq.splitQuote, hq'.splitQuote] at hsplit
  obtain ⟨rfl, hrest⟩ := Prod.mk.inj (Option.some.inj hsplit)
  have hdatatype := String.toList_inj.1 (eq_of_append_space hspace hspace' hrest)
  rw [Token.text, Token.text, hdatatype]

theorem eq_of_append_of_gap {separator s t : String} {u w : List Char}
    (hs : ¬ Divided separator s) (ht : ¬ Divided separator t) (huw : Gap separator u w)
    (hwu : Gap separator w u) (h : s.toList ++ u = t.toList ++ w) : s = t := by
  -- the longer of the two would hold the separator and the beginning of the next token
  have hlonger : ∀ {a b : String} {z x y : List Char}, ¬ Divided separator b →
      Gap separator x y → b.toList = a.toList ++ z → x = z ++ y → a = b := by
    intro a b z x y hb hgap hbz hx
    rcases eq_or_ne z [] with rfl | hz
    · rw [List.append_nil] at hbz
      exact String.toList_inj.1 hbz.symm
    · obtain ⟨start, hstart, rest, hrest⟩ := hgap z hz hx
      refine absurd ⟨start, hstart, ?_⟩ hb
      rw [hbz, ← hrest]
      exact ⟨a.toList, rest, by rw [List.append_assoc]⟩
  rcases List.append_eq_append_iff.1 h with ⟨z, hz, hu⟩ | ⟨z, hz, hw⟩
  · exact hlonger ht huw hz hu
  · exact (hlonger hs hwu hz hw).symm

/-- Only a token that begins with a quote can be at the front of a text that does. -/
theorem startsWith_quote_of_append {token : String} {u rest : List Char}
    (h : token.toList ++ ' ' :: u = '"' :: rest) : Text.startsWith "\"" token = true := by
  rcases hlist : token.toList with _ | ⟨c, cs⟩
  · rw [hlist] at h
    cases (List.cons.inj h).1
  · rw [hlist] at h
    obtain rfl := (List.cons.inj h).1
    refine Text.startsWith_iff.2 ⟨String.ofList cs, ?_⟩
    rw [← String.toList_inj, hlist]
    simp

/-- A token that begins with a quote is a quoted literal. -/
theorem Wire.exists_literal {token : String} (h : Wire token)
    (hquote : Text.startsWith "\"" token = true) :
    ∃ quoted datatype, Quotable quoted ∧ ' ' ∉ (Token.datatypeText datatype).toList ∧
      token = Token.text (.literal quoted datatype) := by
  obtain ⟨rest, hrest⟩ := Text.startsWith_iff.1 hquote
  have hhead := congrArg (fun text => text.toList.head?) hrest
  cases h with
  | literal hq hspace => exact ⟨_, _, hq, hspace, rfl⟩
  | locator text => simp [bracketed] at hhead
  | name text => simp at hhead
  | type => simp at hhead

/-- A token ends where it ends, if neither it nor the one it is compared with is divided. -/
theorem Wire.eq_of_append {separator s t : String} (hs : Wire s) (ht : Wire t)
    (hswhole : Whole separator s) (htwhole : Whole separator t) {u w : List Char}
    (huw : Gap separator (' ' :: u) (' ' :: w)) (hwu : Gap separator (' ' :: w) (' ' :: u))
    (h : s.toList ++ ' ' :: u = t.toList ++ ' ' :: w) : s = t := by
  have hquotes : Text.startsWith "\"" s = true ↔ Text.startsWith "\"" t = true := by
    have hfront : ∀ {a b : String} {x y : List Char}, Text.startsWith "\"" a = true →
        a.toList ++ ' ' :: x = b.toList ++ ' ' :: y → Text.startsWith "\"" b = true := by
      intro a b x y ha hab
      obtain ⟨rest, rfl⟩ := Text.startsWith_iff.1 ha
      have hfront : b.toList ++ ' ' :: y = '"' :: (rest.toList ++ ' ' :: x) := by
        rw [← hab]
        simp
      exact startsWith_quote_of_append hfront
    exact ⟨fun hquote => hfront hquote h, fun hquote => hfront hquote h.symm⟩
  -- either both are quoted or neither is
  rcases hquote : Text.startsWith "\"" s with _ | _
  · rw [hquote] at hquotes
    have hnone : ¬ Text.startsWith "\"" t = true := fun htquote =>
      Bool.false_ne_true (hquotes.2 htquote)
    exact eq_of_append_of_gap (hswhole.resolve_left (by rw [hquote]; exact Bool.false_ne_true))
      (htwhole.resolve_left hnone) huw hwu h
  · obtain ⟨quoted, datatype, hq, hspace, rfl⟩ := hs.exists_literal hquote
    obtain ⟨quoted', datatype', hq', hspace', rfl⟩ := ht.exists_literal (hquotes.1 hquote)
    exact hq.eq_of_append hq' hspace hspace' h

/-! ## Tokens without spaces -/

/-- The token is a quoted literal, or holds no space. -/
def Sealed (token : String) : Prop :=
  Text.startsWith "\"" token = true ∨ ' ' ∉ token.toList

/-- No separator divides such a token. -/
theorem Sealed.whole {token separator : String} (h : Sealed token)
    (hseparator : ' ' ∈ separator.toList) : Whole separator token := by
  refine h.imp_right fun hspace => ?_
  rintro ⟨start, -, hinside⟩
  rw [String.toList_append] at hinside
  exact hspace (hinside.subset (List.mem_append_left _ hseparator))

theorem sealed_plain (text : String) : Sealed (plain text) :=
  .inl (Text.startsWith_iff.2 ⟨_, String.append_assoc ..⟩)

theorem sealed_typed (lexical datatype : String) : Sealed (typed lexical datatype) := by
  refine .inl (Text.startsWith_iff.2 ⟨lexical ++ "\"^^<" ++ datatype ++ ">", ?_⟩)
  simp only [typed, String.append_assoc]

theorem sealed_bracketed {text : String} (h : ' ' ∉ text.toList) : Sealed (bracketed text) := by
  refine .inr ?_
  simp [bracketed, h]

theorem sealed_locator (r : Reference) : Sealed (bracketed r.locator) :=
  sealed_bracketed (r.not_mem_locator (by decide) (by decide))

theorem sealed_of_reservedTerm? {name text : String} (h : reservedTerm? name = some text) :
    Sealed text := by
  rcases reservedTerm?_cases h with ⟨-, rfl⟩ | ⟨ns, term, hns, rfl, hterm⟩
  · exact .inr (by decide +kernel)
  · have hspace : ' ' ∉ ns.toList := by
      rcases hns with rfl | rfl <;> decide +kernel
    refine sealed_bracketed ?_
    rw [String.toList_append, List.mem_append, not_or]
    exact ⟨hspace, fun hmem => absurd (hterm ' ' hmem) (by decide)⟩

theorem sealed_of_encodeTerm {name text : String} (hname : ' ' ∉ name.toList)
    (h : encodeTerm name = .ok text) : Sealed text := by
  rcases encodeTerm_cases h with ⟨-, hreserved⟩ | ⟨inner, rfl, rfl⟩ | ⟨-, -, rfl⟩
  · exact sealed_of_reservedTerm? hreserved
  · exact .inr hname
  · refine .inr ?_
    simp [hname]

end Literal

open Literal

/-- The text that is written as it is for a scalar, if there is one. -/
def Value.verbatim? : Value → Option String
  | .term name => some name
  | .iri locator => some locator
  | _ => none

/-- What is written as it is decides: everything else is quoted or holds no space. -/
theorem Codec.sealed_of_encodeLiteral {v : Value} {token : String}
    (hv : ∀ text ∈ v.verbatim?, ' ' ∉ text.toList) (h : empty.encodeLiteral v = .ok token) :
    Sealed token := by
  cases v with
  | null =>
    obtain rfl := Except.ok.inj h
    exact .inl (Text.startsWith_iff.2 ⟨_, String.append_assoc ..⟩)
  | boolean b =>
    obtain rfl := Except.ok.inj h
    exact sealed_typed _ _
  | integer n =>
    obtain rfl := Except.ok.inj h
    exact sealed_typed _ _
  | float x =>
    rw [encodeLiteral] at h
    obtain rfl := Except.ok.inj h
    exact sealed_typed _ _
  | string s =>
    rw [encodeLiteral] at h
    split at h
    · obtain rfl := Except.ok.inj h
      exact sealed_locator _
    · obtain rfl := Except.ok.inj h
      exact sealed_plain s
  | timestamp t =>
    rw [encodeLiteral] at h
    obtain rfl := Except.ok.inj h
    exact sealed_typed _ _
  | reference r =>
    obtain rfl := Except.ok.inj h
    exact sealed_locator r
  | term name => exact sealed_of_encodeTerm (hv name rfl) h
  | iri locator =>
    obtain rfl := Except.ok.inj h
    exact sealed_bracketed (hv locator rfl)
  | custom kind payload =>
    obtain rfl := Except.ok.inj h
    exact sealed_plain payload
  | node _ | list _ | wildcard _ => cases h

end LinkedData
