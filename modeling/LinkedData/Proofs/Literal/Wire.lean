import LinkedData.Proofs.Literal.RoundTrip
import LinkedData.Proofs.Timestamp.RoundTrip

/-!
# Every wire text is a token

Without handlers of custom kinds the wire text of every scalar, exact or not, is a quoted literal,
a locator, a name, or the abbreviation of the type property (`Wire`). What numbers and timestamps
put between quotes needs no escape, and no datatype that is written holds a space.
-/

namespace LinkedData

open Literal

/-! ## Text that needs no escape -/

namespace Literal

/-- The text means itself between quotes. -/
def IsPlain (text : String) : Prop :=
  ∀ c ∈ text.toList, isPlain c = true

instance (text : String) : Decidable (IsPlain text) :=
  decidable_of_iff (text.toList.all isPlain = true) List.all_eq_true

section

variable {s t : String}

theorem isPlain_append_iff : IsPlain (s ++ t) ↔ IsPlain s ∧ IsPlain t := by
  simp only [IsPlain, String.toList_append, List.mem_append, or_imp, forall_and]

theorem IsPlain.append (hs : IsPlain s) (ht : IsPlain t) : IsPlain (s ++ t) :=
  isPlain_append_iff.2 ⟨hs, ht⟩

theorem IsPlain.ite {p : Prop} [Decidable p] (hs : IsPlain s) (ht : IsPlain t) :
    IsPlain (if p then s else t) := by
  split
  · exact hs
  · exact ht

theorem IsPlain.quotable (hs : IsPlain s) : Quotable s.toList :=
  quotable_of_all (List.all_eq_true.2 hs)

end

/-- Digits need no escape, in whatever selection. -/
theorem isPlain_ofList {cs : List Char} (h : ∀ c ∈ cs, c.isDigit = true) :
    IsPlain (String.ofList cs) := by
  intro c hc
  rw [String.toList_ofList] at hc
  exact isPlain_of_isDigit (h c hc)

theorem isDigit_toString_nat {n : Nat} {c : Char} (h : c ∈ (toString n).toList) :
    c.isDigit = true := by
  have hdigits : (toString n).toList = Nat.toDigits 10 n := Nat.toList_repr
  rw [hdigits] at h
  exact Text.isDigit_toDigits h

theorem isPlain_toString_nat (n : Nat) : IsPlain (toString n) :=
  fun _ hc => isPlain_of_isDigit (isDigit_toString_nat hc)

theorem isPlain_padded (width n : Nat) : IsPlain (Timestamp.padded width n) :=
  fun c hc => isPlain_of_isDigit ((Timestamp.denotes_padded width n).isDigit c hc)

theorem isPlain_zeros (n : Nat) : IsPlain (Binary64.zeros n) := by
  refine isPlain_ofList fun c hc => ?_
  rw [List.eq_of_mem_replicate hc]
  rfl

theorem isPlain_layout (format : Binary64.FloatFormat) (d : Binary64.Decimal) :
    IsPlain (format.layout d) := by
  have hpart : ∀ part : List Char, part ⊆ (toString d.digits).toList →
      IsPlain (String.ofList part) := fun part hpart =>
    isPlain_ofList fun c hc => isDigit_toString_nat (hpart hc)
  have htake : ∀ n, IsPlain (String.ofList ((toString d.digits).toList.take n)) :=
    fun n => hpart _ (List.take_subset n _)
  have hdrop : ∀ n, IsPlain (String.ofList ((toString d.digits).toList.drop n)) :=
    fun n => hpart _ (List.drop_subset n _)
  have hdigits := isPlain_toString_nat d.digits
  have hpoint : IsPlain "." := by decide
  rw [Binary64.FloatFormat.layout]
  refine .ite (.ite ?_ (.ite ?_ ?_)) ?_
  · exact (hdigits.append (isPlain_zeros _)).append (by decide)
  · exact ((htake _).append hpoint).append (hdrop _)
  · exact (IsPlain.append (by decide) (isPlain_zeros _)).append hdigits
  · refine .append (.append (.append (.ite (htake _) ?_) (by decide)) (.ite ?_ ?_))
      (isPlain_toString_nat _)
    · exact ((htake _).append hpoint).append (hdrop _)
    · decide
    · exact .ite (by decide) (by decide)

theorem isPlain_floatText (x : Binary64) : IsPlain (floatText x) := by
  have hsign : IsPlain (if x.isNegative then "-" else "") := .ite (by decide) (by decide)
  rw [floatText]
  refine .ite (by decide) (.ite (.ite (by decide) (by decide)) ?_)
  rw [Binary64.FloatFormat.write]
  exact .ite (hsign.append (by decide)) (hsign.append (isPlain_layout _ _))

theorem isPlain_yearText (year : Int) : IsPlain (Timestamp.yearText year) := by
  rw [Timestamp.yearText]
  exact .ite (isPlain_padded _ _) (.append (.ite (by decide) (by decide)) (isPlain_padded _ _))

theorem isPlain_fractionText (nanosecond : Nat) : IsPlain (Timestamp.fractionText nanosecond) := by
  have hdigits : ∀ width n, IsPlain ("." ++ Timestamp.padded width n) :=
    fun width n => .append (by decide) (isPlain_padded width n)
  rw [Timestamp.fractionText]
  exact .ite (by decide) (.ite (hdigits _ _) (.ite (hdigits _ _) (hdigits _ _)))

theorem isPlain_offsetText (offset : Int) : IsPlain (Timestamp.offsetText offset) := by
  have hsign : IsPlain (if offset < 0 then "-" else "+") := .ite (by decide) (by decide)
  have hcolon : IsPlain ":" := by decide
  simp only [Timestamp.offsetText, isPlain_append_iff, hsign, hcolon, isPlain_padded, and_self]

theorem isPlain_timestamp (t : Timestamp) : IsPlain t.text := by
  have hseparators : IsPlain "-" ∧ IsPlain "T" ∧ IsPlain ":" := by decide
  simp only [Timestamp.text, isPlain_append_iff, hseparators, isPlain_yearText, isPlain_padded,
    isPlain_fractionText, isPlain_offsetText, and_self]

/-! ## Tokens -/

/-- A token as encoding writes it. -/
inductive Wire : String → Prop where
  /-- a quoted literal whose datatype holds no space -/
  | literal {quoted : List Char} {datatype : Option String} : Quotable quoted →
      ' ' ∉ (Token.datatypeText datatype).toList → Wire (Token.text (.literal quoted datatype))
  /-- a locator -/
  | locator (text : String) : Wire (bracketed text)
  /-- a name -/
  | name (text : String) : Wire (":" ++ text)
  /-- the abbreviation of the property that gives a type -/
  | type : Wire "rdf:type"

theorem wire_plain (text : String) : Wire (plain text) := by
  rw [plain_eq_text]
  exact .literal (quotable_escapeChars _) (by decide)

theorem wire_typed {lexical datatype : String} (h : IsPlain lexical)
    (hdatatype : ' ' ∉ (Token.datatypeText (some datatype)).toList) :
    Wire (typed lexical datatype) := by
  rw [typed_eq_text]
  exact .literal h.quotable hdatatype

theorem wire_of_encodeTerm {name text : String} (h : encodeTerm name = .ok text) : Wire text := by
  rcases encodeTerm_cases h with ⟨-, hreserved⟩ | ⟨inner, -, rfl⟩ | ⟨-, -, rfl⟩
  · rcases reservedTerm?_cases hreserved with ⟨-, rfl⟩ | ⟨ns, term, -, rfl, -⟩
    · exact .type
    · exact .locator (ns ++ term)
  · exact .locator inner
  · exact .name name

end Literal

namespace Codec

theorem Carries.wire {codec : Codec} {v : Value} {quoted : List Char} {datatype : Option String}
    {text : String} (hv : codec.Carries v (.literal quoted datatype))
    (hdatatype : ' ' ∉ (Token.datatypeText datatype).toList)
    (h : codec.encodeLiteral v = .ok text) : Wire text := by
  obtain rfl : Token.text (.literal quoted datatype) = text := Except.ok.inj (hv.1.symm.trans h)
  exact .literal hv.2.1 hdatatype

/-- Without handlers every scalar is written as a token. -/
theorem wire_of_encodeLiteral {v : Value} {text : String}
    (h : empty.encodeLiteral v = .ok text) : Wire text := by
  cases v with
  | null => exact (carries_null empty).wire (by decide) h
  | boolean b => exact (carries_boolean empty b).wire (by decide +kernel) h
  | integer n => exact (carries_integer empty n).wire (by decide +kernel) h
  | float x =>
    rw [encodeLiteral] at h
    obtain rfl := Except.ok.inj h
    exact wire_typed (isPlain_floatText x) (by decide +kernel)
  | string s =>
    rw [encodeLiteral] at h
    split at h
    · obtain rfl := Except.ok.inj h
      exact .locator _
    · obtain rfl := Except.ok.inj h
      exact wire_plain s
  | timestamp t =>
    rw [encodeLiteral] at h
    obtain rfl := Except.ok.inj h
    exact wire_typed (isPlain_timestamp t) (by decide +kernel)
  | reference r =>
    obtain rfl := Except.ok.inj h
    exact .locator _
  | term name => exact wire_of_encodeTerm h
  | iri locator =>
    obtain rfl := Except.ok.inj h
    exact .locator _
  | custom kind payload =>
    obtain rfl := Except.ok.inj h
    exact wire_plain payload
  | node _ | list _ | wildcard _ => cases h

end Codec

end LinkedData
