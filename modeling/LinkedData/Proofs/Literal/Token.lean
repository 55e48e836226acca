import LinkedData.Literal.Codec

/-!
# Tokens of wire text

What a reader of wire text sees who knows nothing of values: a *quoted literal* with or
without a datatype, a *locator* in angle brackets, or a *name* after a colon. A quoted
literal ends at the first quote that no backslash protects, so everything hangs on
`Quotable`: text in which quotes, line breaks and tabs never stand by themselves.

`Token.text` writes a token and `Token.ofText?` reads it. They are inverse on tokens whose
quoted text is quotable (`Token.ofText?_text`), hence such tokens are told apart by their
texts. Escaping always gives quotable text (`quotable_escapeChars`), and unescaping undoes
it (`unescapeChars_escapeChars`).
-/

namespace LinkedData.Literal

/-! ## Quoted text -/

/-- Characters that can stand between quotes: a backslash protects the character after it,
and a quote, a line feed, a carriage return or a tab never stands unprotected. The last
three do not stand protected either; letters stand for them. -/
inductive Quotable : List Char → Prop where
  /-- no characters -/
  | nil : Quotable []
  /-- a character that means itself -/
  | plain {c : Char} {cs : List Char} : c ≠ '\\' → c ≠ '"' → c ≠ '\n' → c ≠ '\r' → c ≠ '\t' →
      Quotable cs → Quotable (c :: cs)
  /-- a backslash and the character it protects -/
  | guarded {c : Char} {cs : List Char} : c ≠ '\n' → c ≠ '\r' → c ≠ '\t' →
      Quotable cs → Quotable ('\\' :: c :: cs)

/-- What comes before and after the first quote that no backslash protects. -/
def splitQuote : List Char → Option (List Char × List Char)
  | [] => none
  | '"' :: rest => some ([], rest)
  | '\\' :: c :: rest => (splitQuote rest).map fun (before, after) => ('\\' :: c :: before, after)
  | c :: rest => (splitQuote rest).map fun (before, after) => (c :: before, after)

/-- The character that a backslash and this character stand for. -/
def guardedValue : Char → Char
  | 'n' => '\n'
  | 'r' => '\r'
  | 't' => '\t'
  | c => c

/-- Undo the escapes. A backslash at the very end stands for nothing. -/
def unescapeChars : List Char → List Char
  | [] => []
  | ['\\'] => []
  | '\\' :: c :: rest => guardedValue c :: unescapeChars rest
  | c :: rest => c :: unescapeChars rest

theorem splitQuote_plain {c : Char} (rest : List Char) (h₁ : c ≠ '\\') (h₂ : c ≠ '"') :
    splitQuote (c :: rest) =
      (splitQuote rest).map fun (before, after) => (c :: before, after) := by
  rw [splitQuote.eq_def]
  split
  · contradiction
  · simp_all
  · simp_all
  · simp_all

theorem unescapeChars_plain {c : Char} (rest : List Char) (h : c ≠ '\\') :
    unescapeChars (c :: rest) = c :: unescapeChars rest := by
  rw [unescapeChars.eq_def]
  split <;> simp_all

/-- Quotable text ends at the quote put behind it, whatever follows. -/
theorem Quotable.splitQuote {cs : List Char} (h : Quotable cs) (rest : List Char) :
    splitQuote (cs ++ '"' :: rest) = some (cs, rest) := by
  induction h with
  | nil => rfl
  | plain h₁ h₂ _ _ _ _ ih =>
    rw [List.cons_append, splitQuote_plain _ h₁ h₂, ih]
    rfl
  | guarded _ _ _ _ ih =>
    rw [List.cons_append, List.cons_append, Literal.splitQuote, ih]
    rfl

theorem Quotable.append {cs ds : List Char} (hc : Quotable cs) (hd : Quotable ds) :
    Quotable (cs ++ ds) := by
  induction hc with
  | nil => exact hd
  | plain h₁ h₂ h₃ h₄ h₅ _ ih => exact .plain h₁ h₂ h₃ h₄ h₅ ih
  | guarded h₁ h₂ h₃ _ ih => exact .guarded h₁ h₂ h₃ ih

/-- Is the character none of the five that are escaped? -/
def isPlain (c : Char) : Bool :=
  c != '\\' && c != '"' && c != '\n' && c != '\r' && c != '\t'

theorem isPlain_iff {c : Char} :
    isPlain c = true ↔ c ≠ '\\' ∧ c ≠ '"' ∧ c ≠ '\n' ∧ c ≠ '\r' ∧ c ≠ '\t' := by
  simp only [isPlain, Bool.and_eq_true, bne_iff_ne, and_assoc]

theorem isPlain_of_isDigit {c : Char} (h : c.isDigit = true) : isPlain c = true := by
  rw [isPlain_iff]
  refine ⟨?_, ?_, ?_, ?_, ?_⟩
  all_goals
    rintro rfl
    revert h
    decide

/-- Text without any of the five special characters is quotable. -/
theorem quotable_of_all {cs : List Char} (h : cs.all isPlain = true) : Quotable cs := by
  induction cs with
  | nil => exact .nil
  | cons c cs ih =>
    rw [List.all_cons, Bool.and_eq_true] at h
    obtain ⟨h₁, h₂, h₃, h₄, h₅⟩ := isPlain_iff.1 h.1
    exact .plain h₁ h₂ h₃ h₄ h₅ (ih h.2)

/-! ## Escaping -/

/-- A character is one of the five that are escaped, or is written as it is. -/
theorem escapeChar_cases (c : Char) :
    (c = '\\' ∨ c = '"' ∨ c = '\n' ∨ c = '\r' ∨ c = '\t') ∨
      (c ≠ '\\' ∧ c ≠ '"' ∧ c ≠ '\n' ∧ c ≠ '\r' ∧ c ≠ '\t') ∧ escapeChar c = [c] := by
  rw [escapeChar.eq_def]
  split <;> simp_all

theorem quotable_escapeChar (c : Char) : Quotable (escapeChar c) := by
  rcases escapeChar_cases c with hs | ⟨⟨h₁, h₂, h₃, h₄, h₅⟩, he⟩
  · rcases hs with rfl | rfl | rfl | rfl | rfl <;>
      exact .guarded (by decide) (by decide) (by decide) .nil
  · rw [he]
    exact .plain h₁ h₂ h₃ h₄ h₅ .nil

theorem quotable_escapeChars (cs : List Char) : Quotable (escapeChars cs) := by
  induction cs with
  | nil => exact .nil
  | cons c cs ih => exact (quotable_escapeChar c).append ih

theorem unescapeChars_escapeChar_append (c : Char) (rest : List Char) :
    unescapeChars (escapeChar c ++ rest) = c :: unescapeChars rest := by
  rcases escapeChar_cases c with hs | ⟨⟨h, -⟩, he⟩
  · rcases hs with rfl | rfl | rfl | rfl | rfl <;> rfl
  · rw [he]
    exact unescapeChars_plain rest h

theorem unescapeChars_escapeChars (cs : List Char) : unescapeChars (escapeChars cs) = cs := by
  induction cs with
  | nil => rfl
  | cons c cs ih =>
    rw [escapeChars, List.flatMap_cons, unescapeChars_escapeChar_append]
    exact congrArg (c :: ·) ih

/-- And it means itself. -/
theorem unescapeChars_of_all {cs : List Char} (h : cs.all isPlain = true) :
    unescapeChars cs = cs := by
  induction cs with
  | nil => rfl
  | cons c cs ih =>
    rw [List.all_cons, Bool.and_eq_true] at h
    rw [unescapeChars_plain cs (isPlain_iff.1 h.1).1, ih h.2]

/-! ## Tokens -/

/-- A token of wire text, taken apart. -/
inductive Token where
  /-- the characters between the quotes, still escaped, and the datatype if there is one -/
  | literal (quoted : List Char) (datatype : Option String)
  /-- what stands between angle brackets -/
  | locator (text : String)
  /-- what stands behind a colon -/
  | name (text : String)

namespace Token

/-- What follows the closing quote of a literal. -/
def datatypeText : Option String → String
  | none => ""
  | some datatype => "^^<" ++ datatype ++ ">"

/-- Read what follows the closing quote: nothing, or a datatype and nothing else. -/
def readDatatype? (text : String) : Option (Option String) :=
  if text = "" then some none else (Text.between? "^^<" ">" text).map some

/-- The wire text. -/
def text : Token → String
  | .literal quoted datatype => "\"" ++ String.ofList quoted ++ "\"" ++ datatypeText datatype
  | .locator text => bracketed text
  | .name text => ":" ++ text

/-- Read wire text. A literal ends at the first quote that no backslash protects, and
nothing but a datatype may follow. -/
def ofText? (text : String) : Option Token :=
  match text.toList with
  | '"' :: rest => do
    let (quoted, after) ← splitQuote rest
    let datatype ← readDatatype? (String.ofList after)
    return .literal quoted datatype
  | '<' :: _ => (Text.between? "<" ">" text).map .locator
  | ':' :: rest => some (.name (String.ofList rest))
  | _ => none

/-- The quoted text of a literal is quotable. -/
def WellFormed : Token → Prop
  | .literal quoted _ => Quotable quoted
  | _ => True

/-- The value that a token stands for. -/
def value (codec : Codec) : Token → Except Error Value
  | .literal quoted datatype =>
    codec.decodeLiteral (String.ofList (unescapeChars quoted)) datatype
  | .locator text => .ok (decodeLocator text)
  | .name text => .ok (decodeLocator (Vocabulary.terms ++ text))

theorem readDatatype?_datatypeText (datatype : Option String) :
    readDatatype? (datatypeText datatype) = some datatype := by
  cases datatype with
  | none => rfl
  | some d =>
    have hne : datatypeText (some d) ≠ "" := by
      rw [Ne, ← String.toList_inj]
      simp [datatypeText]
    rw [readDatatype?, if_neg hne, Text.between?_eq_some_iff.2 (by rfl)]
    rfl

/-- **Reading undoes writing**, for every well-formed token. -/
theorem ofText?_text {token : Token} (h : token.WellFormed) : ofText? token.text = some token := by
  cases token with
  | literal quoted datatype =>
    have hl : (text (.literal quoted datatype)).toList =
        '"' :: (quoted ++ '"' :: (datatypeText datatype).toList) := by
      simp [text]
    have hq : Quotable quoted := h
    rw [ofText?, hl]
    simp only [hq.splitQuote]
    simp [readDatatype?_datatypeText]
  | locator t =>
    have hl : (text (.locator t)).toList = '<' :: (t.toList ++ ['>']) := by
      simp [text, bracketed]
    rw [ofText?, hl]
    simp only
    rw [Text.between?_eq_some_iff.2 (by rfl)]
    rfl
  | name t =>
    have hl : (text (.name t)).toList = ':' :: t.toList := by
      simp [text]
    rw [ofText?, hl]
    simp

theorem ofText?_name (name : String) : ofText? (":" ++ name) = some (.name name) := by
  have hname : (Token.name name).WellFormed := trivial
  exact ofText?_text hname

theorem ofText?_bracketed (locator : String) :
    ofText? (bracketed locator) = some (.locator locator) := by
  have hlocator : (Token.locator locator).WellFormed := trivial
  exact ofText?_text hlocator

theorem eq_of_text_eq {s t : Token} (hs : s.WellFormed) (ht : t.WellFormed)
    (h : s.text = t.text) : s = t := by
  have : some s = some t := by
    rw [← ofText?_text hs, h, ofText?_text ht]
  exact Option.some.inj this

end Token

end LinkedData.Literal
