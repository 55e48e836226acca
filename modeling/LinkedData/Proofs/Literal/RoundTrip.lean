import LinkedData.Proofs.Literal.Token
import LinkedData.Proofs.Text.Digits

/-!
# Scalars that the wire carries exactly

Most built-in scalars can be recovered from their wire text. The exceptions are texts that
look like something else (a tagged reference, or the text of the null), terms that are not
written behind a colon, and locators that belong to one of the own namespaces. What is left
are the *exact* scalars.

The main statement is `exact_round_trip`: an exact scalar has wire text, which is the text
of a well-formed token; reading the text gives that token, and its value is the scalar. So
no text can end its own literal, and different exact scalars have different wire texts.
-/

namespace LinkedData

open Literal

/-- The scalars that the wire carries exactly. -/
inductive Value.Exact : Value → Prop where
  /-- the null -/
  | null : Value.Exact .null
  /-- a truth value -/
  | boolean (b : Bool) : Value.Exact (.boolean b)
  /-- a whole number -/
  | integer (n : Int64) : Value.Exact (.integer n)
  /-- a text that is neither `@id(name)` nor what the null is stored as -/
  | string {s : String} (untagged : Reference.ofTag? s = none) (present : s ≠ Vocabulary.nil) :
      Value.Exact (.string s)
  /-- a reference -/
  | reference (r : Reference) : Value.Exact (.reference r)
  /-- a term without a leading `@` that does not stand in angle brackets -/
  | term {name : String} (unreserved : Text.startsWith "@" name = false)
      (unwrapped : (Text.startsWith "<" name && Text.endsWith ">" name) = false) :
      Value.Exact (.term name)
  /-- a locator outside the own namespaces -/
  | iri {locator : String} (foreign : decodeLocator locator = .iri locator) :
      Value.Exact (.iri locator)

namespace Literal

/-! ## Whole numbers -/

theorem isBlank_of_isDigit {c : Char} (h : c.isDigit = true) : Text.isBlank c = false := by
  obtain ⟨hl, hu⟩ := Text.toNat_of_isDigit h
  simp only [Text.isBlank, Text.inRanges, Text.blankRanges, Text.CodeRange.holds, List.any_cons,
    List.any_nil, Bool.or_false, Bool.or_eq_false_iff, Bool.and_eq_false_iff,
    decide_eq_false_iff_not]
  omega

/-- Without blanks there is nothing to trim. -/
theorem trim_of_forall {cs : List Char} (h : ∀ c ∈ cs, Text.isBlank c = false) :
    Text.trim cs = cs := by
  have hd : ∀ ds : List Char, (∀ c ∈ ds, Text.isBlank c = false) →
      ds.dropWhile Text.isBlank = ds := by
    intro ds hds
    cases ds with
    | nil => rfl
    | cons c ds => simp [hds c List.mem_cons_self]
  rw [Text.trim, Text.trimStart, hd cs h, hd _ fun c hc => h c (List.mem_reverse.1 hc),
    List.reverse_reverse]

theorem splitSign_toDigits (n : Nat) :
    Binary64.splitSign (Nat.toDigits 10 n) = (false, Nat.toDigits 10 n) := by
  rw [Binary64.splitSign.eq_def]
  split
  · rename_i rest h
    have := @Text.isDigit_toDigits n '-' (h ▸ List.mem_cons_self)
    cases this
  · rename_i rest h
    have := @Text.isDigit_toDigits n '+' (h ▸ List.mem_cons_self)
    cases this
  · rfl

theorem readInteger?_toDigits (n : Nat) :
    readInteger? (Nat.toDigits 10 n) = some (n : Int) := by
  have hall : (Nat.toDigits 10 n).all Char.isDigit = true :=
    List.all_eq_true.2 fun c hc => Text.isDigit_toDigits hc
  rw [readInteger?, splitSign_toDigits]
  simp [hall, (Text.denotes_toDigits n).value, Nat.toDigits_ne_nil]

theorem readInteger?_neg_toDigits (n : Nat) :
    readInteger? ('-' :: Nat.toDigits 10 n) = some (-(n : Int)) := by
  have hall : (Nat.toDigits 10 n).all Char.isDigit = true :=
    List.all_eq_true.2 fun c hc => Text.isDigit_toDigits hc
  rw [readInteger?, Binary64.splitSign]
  simp [hall, (Text.denotes_toDigits n).value, Nat.toDigits_ne_nil]

theorem readInteger?_toString (n : Int) : readInteger? (toString n).toList = some n := by
  rcases Text.toList_toString_int n with ⟨hl, hn⟩ | ⟨hl, hn⟩
  · rw [hl, readInteger?_toDigits, Int.natAbs_of_nonneg hn]
  · rw [hl, readInteger?_neg_toDigits, Int.ofNat_natAbs_of_nonpos (by omega), Int.neg_neg]

/-- The characters of a whole number are digits and a minus. -/
theorem mem_toString_int {n : Int} {c : Char} (h : c ∈ (toString n).toList) :
    c.isDigit = true ∨ c = '-' := by
  rcases Text.toList_toString_int n with ⟨hl, -⟩ | ⟨hl, -⟩
  · rw [hl] at h
    exact .inl (Text.isDigit_toDigits h)
  · rw [hl] at h
    rcases List.mem_cons.1 h with hc | hc
    · exact .inr hc
    · exact .inl (Text.isDigit_toDigits hc)

theorem readInt64?_toString (n : Int64) :
    readInt64? (Text.trim (toString n.toInt).toList) = some n := by
  have hblank : ∀ c ∈ (toString n.toInt).toList, Text.isBlank c = false := by
    intro c hc
    rcases mem_toString_int hc with hd | rfl
    · exact isBlank_of_isDigit hd
    · decide
  have hrange : Int64.minValue.toInt ≤ n.toInt ∧ n.toInt ≤ Int64.maxValue.toInt :=
    ⟨n.minValue_le_toInt, n.toInt_le⟩
  rw [trim_of_forall hblank, readInt64?, readInteger?_toString, Option.bind_some,
    if_pos hrange, Int64.ofInt_toInt]

/-! ## Literals as tokens -/

theorem plain_eq_text (s : String) :
    plain s = Token.text (.literal (escapeChars s.toList) none) := by
  rw [← String.toList_inj]
  simp [plain, escape, Token.text, Token.datatypeText]

theorem typed_eq_text (lexical datatype : String) :
    typed lexical datatype = Token.text (.literal lexical.toList (some datatype)) := by
  rw [← String.toList_inj]
  simp [typed, Token.text, Token.datatypeText]

theorem expandDatatype_xsdBoolean :
    expandDatatype Vocabulary.xsdBoolean = Vocabulary.xsdBoolean := by
  decide

theorem expandDatatype_xsdInteger :
    expandDatatype Vocabulary.xsdInteger = Vocabulary.xsdInteger := by
  decide

theorem decodeLiteral_xsdBoolean (codec : Codec) (lexical : String) :
    codec.decodeLiteral lexical (some Vocabulary.xsdBoolean) = decodeBoolean lexical := by
  rw [Codec.decodeLiteral, expandDatatype_xsdBoolean, Codec.decodeTyped,
    if_neg (by decide), if_neg (by decide), if_pos rfl]

theorem decodeLiteral_xsdInteger (codec : Codec) (lexical : String) :
    codec.decodeLiteral lexical (some Vocabulary.xsdInteger) = decodeInteger lexical := by
  rw [Codec.decodeLiteral, expandDatatype_xsdInteger, Codec.decodeTyped, if_pos rfl]

theorem decodeBoolean_text (b : Bool) :
    decodeBoolean (if b then "true" else "false") = .ok (.boolean b) := by
  cases b <;> rfl

theorem decodeInteger_toString (n : Int64) :
    decodeInteger (toString n.toInt) = .ok (.integer n) := by
  rw [decodeInteger, readInt64?_toString]

/-! ## Locators -/

/-- The namespaces of identifiers and of terms do not overlap, and the null is in neither. -/
theorem decodeLocator_locator (r : Reference) : decodeLocator r.locator = .reference r := by
  have hnil : Text.Apart Vocabulary.ids Vocabulary.nil := by decide
  have hne : r.locator ≠ Vocabulary.nil := hnil.append_ne r.name
  have hname : Text.after? Vocabulary.ids r.locator = some r.name :=
    Text.after?_eq_some_iff.2 rfl
  rw [decodeLocator, if_neg hne, hname]
  simp [Reference.ofName?_name]

theorem decodeLocator_terms (name : String) :
    decodeLocator (Vocabulary.terms ++ name) = .term name := by
  have hnil : Text.Apart Vocabulary.terms Vocabulary.nil := by decide
  have hids : Text.Apart Vocabulary.ids Vocabulary.terms := by decide
  have hname : Text.after? Vocabulary.terms (Vocabulary.terms ++ name) = some name :=
    Text.after?_eq_some_iff.2 rfl
  rw [decodeLocator, if_neg (hnil.append_ne name), hids.after?_eq_none name, hname]
  rfl

/-! ## Names -/

theorem encodeTerm_of_plain {name : String} (unreserved : Text.startsWith "@" name = false)
    (unwrapped : (Text.startsWith "<" name && Text.endsWith ">" name) = false) :
    encodeTerm name = .ok (":" ++ name) := by
  rw [encodeTerm, unreserved, unwrapped]
  rfl

/-- The name of a term is read off the text that ends it. -/
theorem exists_term_of_any {ns last : String} (hns : ns = Vocabulary.rdfs ∨ ns = Vocabulary.owl)
    (h : (Text.before? ">" last).any (·.toList.all Char.isAlpha) = true) :
    ∃ ns' term : String, (ns' = Vocabulary.rdfs ∨ ns' = Vocabulary.owl) ∧
      "<" ++ ns ++ last = bracketed (ns' ++ term) ∧ ∀ c ∈ term.toList, c.isAlpha = true := by
  obtain ⟨term, hlast, hterm⟩ := (Option.any_eq_true _ _).1 h
  obtain rfl := Text.before?_eq_some_iff.1 hlast
  refine ⟨ns, term, hns, ?_, List.all_eq_true.1 hterm⟩
  rw [bracketed, ← String.append_assoc, ← String.append_assoc]

/-- A reserved name stands for the property that gives a type, or for a term in one of two
namespaces, which is a word of letters. -/
theorem reservedTerm?_cases {name text : String} (h : reservedTerm? name = some text) :
    (name = "@type" ∧ text = "rdf:type") ∨
      ∃ ns term : String, (ns = Vocabulary.rdfs ∨ ns = Vocabulary.owl) ∧
        text = bracketed (ns ++ term) ∧ ∀ c ∈ term.toList, c.isAlpha = true := by
  rw [reservedTerm?.eq_def] at h
  split at h
  · exact .inl ⟨rfl, (Option.some.inj h).symm⟩
  all_goals first
    | obtain rfl := Option.some.inj h
      exact .inr (exists_term_of_any (by simp) (by decide +kernel))
    | cases h

/-- A text in angle brackets is what stands between them, in brackets. -/
theorem exists_bracketed_of_wrapped {text : String}
    (h : (Text.startsWith "<" text && Text.endsWith ">" text) = true) :
    ∃ inner, text = bracketed inner := by
  rw [Bool.and_eq_true, Text.startsWith_iff, Text.endsWith_iff] at h
  obtain ⟨⟨after, rfl⟩, before, hbefore⟩ := h
  have hlist := congrArg String.toList hbefore
  rw [String.toList_append, String.toList_append] at hlist
  rcases hcs : before.toList with _ | ⟨c, cs⟩
  · -- the bracket that opens is not the one that closes
    rw [hcs] at hlist
    cases (List.cons.inj hlist).1
  · rw [hcs] at hlist
    have hafter : after = String.ofList cs ++ ">" := by
      rw [← String.toList_inj, String.toList_append, String.toList_ofList]
      exact (List.cons.inj hlist).2
    rw [hafter, ← String.append_assoc]
    exact ⟨_, rfl⟩

/-- A name is encoded as the term it is reserved for, as it is if it stands in angle brackets, and
behind a colon otherwise. -/
theorem encodeTerm_cases {name text : String} (h : encodeTerm name = .ok text) :
    (Text.startsWith "@" name = true ∧ reservedTerm? name = some text) ∨
      (∃ inner, name = bracketed inner ∧ text = bracketed inner) ∨
      (Text.startsWith "@" name = false ∧
        (Text.startsWith "<" name && Text.endsWith ">" name) = false ∧ text = ":" ++ name) := by
  rw [encodeTerm] at h
  split at h
  · rename_i hat
    split at h
    · rename_i hreserved
      obtain rfl := Except.ok.inj h
      exact .inl ⟨hat, hreserved⟩
    · cases h
  · rename_i hunreserved
    split at h
    · rename_i hwrapped
      obtain rfl := Except.ok.inj h
      obtain ⟨inner, rfl⟩ := exists_bracketed_of_wrapped hwrapped
      exact .inr (.inl ⟨inner, rfl, rfl⟩)
    · rename_i hunwrapped
      obtain rfl := Except.ok.inj h
      exact .inr (.inr ⟨Bool.eq_false_iff.2 hunreserved, Bool.eq_false_iff.2 hunwrapped, rfl⟩)

end Literal

/-! ## The round trip -/

namespace Codec

variable (codec : Codec)

/-- The wire text of the value is that of a well-formed token, and the value of this token
is the value again. -/
def Carries (v : Value) (token : Token) : Prop :=
  codec.encodeLiteral v = .ok token.text ∧ token.WellFormed ∧ token.value codec = .ok v

theorem carries_null : codec.Carries .null (.literal Vocabulary.nil.toList none) := by
  have hplain : Vocabulary.nil.toList.all isPlain = true := by decide
  refine ⟨?_, quotable_of_all hplain, ?_⟩
  · rw [encodeLiteral, Token.text, String.ofList_toList, Token.datatypeText, String.append_empty]
  · rw [Token.value, unescapeChars_of_all hplain, String.ofList_toList]
    rfl

theorem carries_boolean (b : Bool) :
    codec.Carries (.boolean b)
      (.literal (if b then "true" else "false").toList (some Vocabulary.xsdBoolean)) := by
  have hplain : (if b then "true" else "false").toList.all isPlain = true := by
    cases b <;> decide
  refine ⟨?_, quotable_of_all hplain, ?_⟩
  · rw [encodeLiteral, typed_eq_text]
  · rw [Token.value, unescapeChars_of_all hplain, String.ofList_toList,
      decodeLiteral_xsdBoolean, decodeBoolean_text]

theorem carries_integer (n : Int64) :
    codec.Carries (.integer n)
      (.literal (toString n.toInt).toList (some Vocabulary.xsdInteger)) := by
  have hplain : (toString n.toInt).toList.all isPlain = true := by
    refine List.all_eq_true.2 fun c hc => ?_
    rcases mem_toString_int hc with hd | rfl
    · exact isPlain_of_isDigit hd
    · decide
  refine ⟨?_, quotable_of_all hplain, ?_⟩
  · rw [encodeLiteral, typed_eq_text]
  · rw [Token.value, unescapeChars_of_all hplain, String.ofList_toList,
      decodeLiteral_xsdInteger, decodeInteger_toString]

theorem carries_string {s : String} (untagged : Reference.ofTag? s = none)
    (present : s ≠ Vocabulary.nil) :
    codec.Carries (.string s) (.literal (escapeChars s.toList) none) := by
  refine ⟨?_, quotable_escapeChars s.toList, ?_⟩
  · rw [encodeLiteral, untagged, plain_eq_text]
  · rw [Token.value, unescapeChars_escapeChars, String.ofList_toList, decodeLiteral,
      if_neg present]

theorem carries_reference (r : Reference) :
    codec.Carries (.reference r) (.locator r.locator) :=
  ⟨rfl, trivial, congrArg Except.ok (decodeLocator_locator r)⟩

theorem carries_term {name : String} (unreserved : Text.startsWith "@" name = false)
    (unwrapped : (Text.startsWith "<" name && Text.endsWith ">" name) = false) :
    codec.Carries (.term name) (.name name) :=
  ⟨encodeTerm_of_plain unreserved unwrapped, trivial,
    congrArg Except.ok (decodeLocator_terms name)⟩

theorem carries_iri {locator : String} (foreign : decodeLocator locator = .iri locator) :
    codec.Carries (.iri locator) (.locator locator) :=
  ⟨rfl, trivial, congrArg Except.ok foreign⟩

/-- Every exact scalar is carried by some token. -/
theorem exists_carries {v : Value} (h : v.Exact) : ∃ token, codec.Carries v token := by
  cases h with
  | null => exact ⟨_, codec.carries_null⟩
  | boolean b => exact ⟨_, codec.carries_boolean b⟩
  | integer n => exact ⟨_, codec.carries_integer n⟩
  | string untagged present => exact ⟨_, codec.carries_string untagged present⟩
  | reference r => exact ⟨_, codec.carries_reference r⟩
  | term unreserved unwrapped => exact ⟨_, codec.carries_term unreserved unwrapped⟩
  | iri foreign => exact ⟨_, codec.carries_iri foreign⟩

variable {codec}

/-- The token that carries a value is the one that its wire text is read as. -/
theorem Carries.ofText? {v : Value} {token : Token} (h : codec.Carries v token) :
    Token.ofText? token.text = some token :=
  Token.ofText?_text h.2.1

/-- A token carries one value only. -/
theorem Carries.unique {v w : Value} {token : Token} (hv : codec.Carries v token)
    (hw : codec.Carries w token) : v = w :=
  Except.ok.inj (hv.2.2.symm.trans hw.2.2)

theorem Carries.eq_of_encodeLiteral_eq {v w : Value} {s t : Token} (hv : codec.Carries v s)
    (hw : codec.Carries w t) (h : codec.encodeLiteral v = codec.encodeLiteral w) : v = w := by
  have htext : s.text = t.text := by
    rw [hv.1, hw.1] at h
    exact Except.ok.inj h
  obtain rfl : s = t := Token.eq_of_text_eq hv.2.1 hw.2.1 htext
  exact hv.unique hw

/-- **The wire carries exact scalars exactly.** Such a scalar has wire text. The text is that
of a well-formed token, whose quoted part, if it has one, ends at its first unprotected quote
with nothing but a datatype behind it; and the token stands for the scalar. Unescaping undoes
escaping, and no two exact scalars share their wire text. -/
theorem exact_round_trip (codec : Codec) :
    (∀ v : Value, v.Exact → ∃ token : Token,
      codec.encodeLiteral v = .ok token.text ∧ token.WellFormed ∧
      Token.ofText? token.text = some token ∧ token.value codec = .ok v) ∧
    (∀ cs : List Char, unescapeChars (escapeChars cs) = cs) ∧
    ∀ v w : Value, v.Exact → w.Exact →
      codec.encodeLiteral v = codec.encodeLiteral w → v = w := by
  refine ⟨?_, unescapeChars_escapeChars, ?_⟩
  · intro v hv
    obtain ⟨token, h⟩ := codec.exists_carries hv
    exact ⟨token, h.1, h.2.1, h.ofText?, h.2.2⟩
  · intro v w hv hw h
    obtain ⟨s, hs⟩ := codec.exists_carries hv
    obtain ⟨t, ht⟩ := codec.exists_carries hw
    exact hs.eq_of_encodeLiteral_eq ht h

/-- A text that tries to end its literal and to add a datatype, beside the least number. -/
theorem exact_round_trip_hostile_text :
    (Value.string "1\"^^<xsd:int> .\n\\").Exact ∧ (Value.integer Int64.minValue).Exact ∧
    (∃ token : Token,
      empty.encodeLiteral (.string "1\"^^<xsd:int> .\n\\") = .ok token.text ∧
      token.WellFormed ∧ Token.ofText? token.text = some token ∧
      token.value empty = .ok (.string "1\"^^<xsd:int> .\n\\")) ∧
    (empty.encodeLiteral (.string "1\"^^<xsd:int> .\n\\") =
        empty.encodeLiteral (.integer Int64.minValue) →
      Value.string "1\"^^<xsd:int> .\n\\" = .integer Int64.minValue) := by
  have hs : (Value.string "1\"^^<xsd:int> .\n\\").Exact :=
    .string (by decide +kernel) (by decide +kernel)
  have hn : (Value.integer Int64.minValue).Exact := .integer Int64.minValue
  obtain ⟨hread, -, hinj⟩ := exact_round_trip empty
  exact ⟨hs, hn, hread _ hs, hinj _ _ hs hn⟩

end Codec

end LinkedData
