import LinkedData.Proofs.Literal.RoundTrip
import LinkedData.Query.Compile

/-!
# Variables among tokens

Variables are the tokens that begin with a question mark. The wire text of a scalar or of a
property is never one (`not_isVariable_encodeLiteral`, `not_isVariable_encodeTerm`), and the
subject variables of different nodes differ (`subjectVariable_injective`). Clauses are
renamed token by token (`Clause.mapTokens`); replacing one token is a case of that.
-/

namespace LinkedData

/-- Is the token a variable? -/
def isVariable (token : String) : Bool :=
  Text.startsWith "?" token

theorem isVariable_iff {token : String} :
    isVariable token = true ↔ token.toList.head? = some '?' := by
  rw [isVariable, Text.startsWith_iff]
  constructor
  · rintro ⟨rest, rfl⟩
    rw [String.toList_append]
    rfl
  · intro h
    rcases hl : token.toList with _ | ⟨c, cs⟩
    · rw [hl] at h
      cases h
    · rw [hl] at h
      obtain rfl : c = '?' := Option.some.inj h
      refine ⟨String.ofList cs, ?_⟩
      rw [← String.toList_inj, hl]
      simp

/-- A token that begins with another character is no variable. -/
theorem not_isVariable_of_head {token : String} {c : Char} (h : token.toList.head? = some c)
    (hc : c ≠ '?') : isVariable token = false := by
  rw [Bool.eq_false_iff]
  intro hv
  rw [isVariable_iff, h] at hv
  exact hc (Option.some.inj hv)

namespace Literal

theorem not_isVariable_bracketed (locator : String) : isVariable (bracketed locator) = false :=
  not_isVariable_of_head (c := '<') (by simp [bracketed]) (by decide)

theorem not_isVariable_plain (text : String) : isVariable (plain text) = false :=
  not_isVariable_of_head (c := '"') (by simp [plain]) (by decide)

theorem not_isVariable_typed (lexical datatype : String) :
    isVariable (typed lexical datatype) = false :=
  not_isVariable_of_head (c := '"') (by simp [typed]) (by decide)

/-- A property is written behind a colon, in angle brackets, or as a reserved term. -/
theorem not_isVariable_encodeTerm {name token : String} (h : encodeTerm name = .ok token) :
    isVariable token = false := by
  rcases encodeTerm_cases h with ⟨-, hreserved⟩ | ⟨inner, -, rfl⟩ | ⟨-, -, rfl⟩
  · rcases reservedTerm?_cases hreserved with ⟨-, rfl⟩ | ⟨ns, term, -, rfl, -⟩
    · decide
    · exact not_isVariable_bracketed (ns ++ term)
  · exact not_isVariable_bracketed inner
  · exact not_isVariable_of_head (c := ':') (by simp) (by decide)

end Literal

open Literal

theorem not_isVariable_encodeLiteral {codec : Codec} {v : Value} {token : String}
    (h : codec.encodeLiteral v = .ok token) : isVariable token = false := by
  cases v with
  | null =>
    obtain rfl := Except.ok.inj h
    exact not_isVariable_of_head (c := '"') (by simp) (by decide)
  | boolean _ | integer _ | float _ | timestamp _ =>
    obtain rfl := Except.ok.inj h
    exact not_isVariable_typed _ _
  | reference _ | iri _ =>
    obtain rfl := Except.ok.inj h
    exact not_isVariable_bracketed _
  | string s =>
    rw [Codec.encodeLiteral] at h
    split at h
    · obtain rfl := Except.ok.inj h
      exact not_isVariable_bracketed _
    · obtain rfl := Except.ok.inj h
      exact not_isVariable_plain _
  | term name => exact not_isVariable_encodeTerm h
  | custom kind payload =>
    rw [Codec.encodeLiteral] at h
    split at h
    · rename_i handler _
      rcases hl : handler.toLexical payload with e | lexical
      · rw [hl] at h
        cases h
      · rw [hl] at h
        obtain rfl := Except.ok.inj h
        exact not_isVariable_typed _ _
    · obtain rfl := Except.ok.inj h
      exact not_isVariable_plain _
  | node _ | list _ | wildcard _ => cases h

/-! ## Subject variables -/

theorem subjectVariable_injective {m n : Nat}
    (h : Group.subjectVariable m = Group.subjectVariable n) : m = n :=
  Text.toString_nat_injective ((String.append_right_inj _).1 h)

theorem isVariable_subjectVariable (n : Nat) : isVariable (Group.subjectVariable n) = true := by
  rw [isVariable_iff, Group.subjectVariable, String.toList_append]
  rfl

theorem ne_subjectVariable {token : String} (h : isVariable token = false) (n : Nat) :
    token ≠ Group.subjectVariable n := by
  rintro rfl
  rw [isVariable_subjectVariable] at h
  cases h

/-! ## Renaming -/

/-- Rename every token of a triple. -/
def Triple.mapTokens (f : String → String) (t : Triple) : Triple :=
  ⟨f t.subject, f t.predicate, f t.object⟩

/-- Rename every token of a triple; filters stay. -/
def Clause.mapTokens (f : String → String) : Clause → Clause
  | .triple t => .triple (t.mapTokens f)
  | .filter b => .filter b

end LinkedData
