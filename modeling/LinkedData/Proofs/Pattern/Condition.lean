import LinkedData.Pattern.Filter
import LinkedData.Proofs.Literal.Token
import LinkedData.Proofs.Text.Reader
import Mathlib.Data.List.Forall2

/-!
# Conditions

What the text of a filter says is a condition on its variable. `Condition.reader` reads such texts.
It knows the grammar of conditions, and of literals it knows only how they are quoted; it never
asks which filter or which value a text was made from.

`Condition.Written` says that a text is read as a condition, whatever follows the text. There is one
lemma for each form of the grammar, so that a text is read as it was put together.
-/

namespace LinkedData

/-- What the text of a filter says. -/
inductive Condition where
  /-- the variable compares with a literal, of which there is only the text -/
  | compare (token : String) (op : FilterOp) (literal : String)
  /-- the variable compares with the outcome of a condition -/
  | compareWith (token : String) (op : FilterOp) (inner : Condition)
  /-- a negation -/
  | not (inner : Condition)
  /-- the variable matches a regular expression -/
  | like (token : String) (pattern : String)
  /-- a conjunction -/
  | all (terms : List Condition)
  /-- a disjunction -/
  | any (terms : List Condition)

/-- The comparison with this sign. -/
def FilterOp.ofSymbol? (symbol : String) : Option FilterOp :=
  match symbol with
  | "=" => some .eq
  | "!=" => some .neq
  | "<" => some .lt
  | "<=" => some .lte
  | ">" => some .gt
  | ">=" => some .gte
  | _ => none

theorem FilterOp.ofSymbol?_of_symbol? {op : FilterOp} {symbol : String}
    (h : op.symbol? = some symbol) : FilterOp.ofSymbol? symbol = some op := by
  cases op with
  | not | like | oneOf | all | any => cases h
  | eq | neq | lt | lte | gt | gte =>
    obtain rfl := Option.some.inj h
    rfl

theorem FilterOp.not_mem_of_symbol? {op : FilterOp} {symbol : String}
    (h : op.symbol? = some symbol) : ' ' ∉ symbol.toList := by
  cases op with
  | not | like | oneOf | all | any => cases h
  | eq | neq | lt | lte | gt | gte =>
    obtain rfl := Option.some.inj h
    decide

/-- A variable: a question mark and word characters. -/
def IsVariableToken (token : String) : Prop :=
  ∃ name, token = "?" ++ name ∧ name.toList.all Text.isWordChar = true

/-- The end of the token can be found: its quoted text is quotable, and no angle bracket is closed
before the last one. -/
def Literal.Token.Delimited : Literal.Token → Prop
  | .literal quoted datatype =>
    Literal.Quotable quoted ∧ ∀ d, datatype = some d → '>' ∉ d.toList
  | .locator text => '>' ∉ text.toList
  | .name _ => False

namespace Condition

open Text Reader Literal

/-- One of several conditions holds. With a single condition this is not told from all of them. -/
def either : List Condition → Condition
  | [c] => .all [c]
  | cs => .any cs

/-! ## The grammar -/

/-- A variable, and the character behind it. -/
def variableReader (stop : Char) : Reader String := do
  expect "?"
  let name ← upTo stop
  return "?" ++ name

/-- The sign of a comparison, and the space behind it. -/
def signReader : Reader FilterOp := do
  let symbol ← upTo ' '
  StateT.lift (FilterOp.ofSymbol? symbol)

/-- What is left of a quoted text, and its closing quote. -/
def quotedReader : Reader (List Char) :=
  splitQuote

/-- What comes behind the closing quote of a literal: the bracket that closes the comparison,
perhaps after a datatype. The bracket is read here, because without it nobody knows whether a
datatype is still to come. -/
def endingReader : Reader (Option String) :=
  (do
    expect ")"
    return none) <|>
  (do
    expect "^^<"
    let datatype ← upTo '>'
    expect ")"
    return some datatype)

/-- A literal, and the bracket that closes the comparison. -/
def literalReader : Reader Token :=
  (do
    expect "\""
    let quoted ← quotedReader
    let datatype ← endingReader
    return .literal quoted datatype) <|>
  (do
    expect "<"
    let locator ← upTo '>'
    expect ")"
    return .locator locator)

/-- What a variable is compared with, and the closing bracket. -/
def operandReader (inner : Reader Condition) (token : String) (op : FilterOp) : Reader Condition :=
  (do
    let literal ← literalReader
    return .compare token op literal.text) <|>
  (do
    let condition ← inner
    expect ")"
    return .compareWith token op condition)

/-- A comparison without its opening bracket. -/
def comparisonReader (inner : Reader Condition) : Reader Condition := do
  let token ← variableReader ' '
  let op ← signReader
  operandReader inner token op

/-- A match without its opening bracket. -/
def matchReader : Reader Condition := do
  expect "regex("
  let token ← variableReader ','
  expect "\""
  let quoted ← quotedReader
  expect ",\"i\"))"
  return .like token (String.ofList (unescapeChars quoted))

/-- The further terms of a join, and the closing bracket. There are fewer of them than given. -/
def termsReader (connective : String) (inner : Reader Condition) : Nat → Reader (List Condition)
  | 0 => failure
  | fuel + 1 =>
    (do
      expect ")"
      return []) <|>
    (do
      expect connective
      let first ← inner
      let others ← termsReader connective inner fuel
      return first :: others)

/-- The terms of a join behind the first one. What is joined to nothing is taken for a
conjunction. -/
def othersReader (inner : Reader Condition) (fuel : Nat) (first : Condition) : Reader Condition :=
  (do
    let others ← termsReader "&&" inner fuel
    return .all (first :: others)) <|>
  (do
    let others ← termsReader "||" inner fuel
    return .any (first :: others))

/-- A join without its opening bracket. -/
def joinReader (inner : Reader Condition) (fuel : Nat) : Reader Condition := do
  let first ← inner
  othersReader inner fuel first

/-- A negation. -/
def negationReader (inner : Reader Condition) : Reader Condition := do
  expect "!("
  let condition ← inner
  expect ")"
  return .not condition

/-- What comes behind an opening bracket. -/
def bodyReader (inner : Reader Condition) (fuel : Nat) : Reader Condition :=
  matchReader <|> comparisonReader inner <|> joinReader inner fuel

/-- A condition that has fewer levels than given, and fewer terms on each of them. -/
def reader : Nat → Reader Condition
  | 0 => failure
  | fuel + 1 =>
    negationReader (reader fuel) <|> (do
      expect "("
      bodyReader (reader fuel) fuel)

/-- Read a condition at the front of the characters. Nothing can be nested deeper than there are
characters. -/
def read? (cs : List Char) : Option (Condition × List Char) :=
  reader cs.length cs

/-- A clause with a condition. -/
def clauseReader (fuel : Nat) : Reader Condition := do
  expect "FILTER("
  let condition ← reader fuel
  expect ")"
  return condition

/-- Read a clause at the front of the characters. -/
def readClause? (cs : List Char) : Option (Condition × List Char) :=
  clauseReader cs.length cs

/-! ## Variables, signs and literals -/

variable {token text : String} {c : Condition}

theorem takes_variable {stop : Char} {closing : String} (htoken : IsVariableToken token)
    (hstop : isWordChar stop = false) (hclosing : closing.toList = [stop]) :
    Takes (variableReader stop) (token ++ closing) token := by
  obtain ⟨name, rfl, hname⟩ := htoken
  rw [String.append_assoc]
  refine (takes_expect "?").bind ?_
  exact (takes_upTo hclosing (not_mem_of_all_isWordChar hname hstop)).map _

theorem takes_sign {op : FilterOp} {symbol : String} (h : op.symbol? = some symbol) :
    Takes signReader (symbol ++ " ") op := by
  have hlift : Takes (StateT.lift (FilterOp.ofSymbol? symbol)) "" op := by
    rw [FilterOp.ofSymbol?_of_symbol? h]
    exact fun _ => rfl
  have hread : Takes signReader (symbol ++ " " ++ "") op :=
    (takes_upTo rfl (FilterOp.not_mem_of_symbol? h)).bind hlift
  rwa [String.append_empty] at hread

theorem takes_quoted {cs : List Char} (h : Quotable cs) :
    Takes quotedReader (String.ofList cs ++ "\"") cs := by
  intro rest
  have hsplit : (String.ofList cs ++ "\"").toList ++ rest = cs ++ '"' :: rest := by
    simp
  rw [hsplit]
  exact h.splitQuote rest

theorem takes_ending {datatype : Option String} (h : ∀ d, datatype = some d → '>' ∉ d.toList) :
    Takes endingReader (Token.datatypeText datatype ++ ")") datatype := by
  cases datatype with
  | none => exact ((takes_expect ")").map _).or_left _
  | some d =>
    have htext : Token.datatypeText (some d) ++ ")" = "^^<" ++ ((d ++ ">") ++ ")") := by
      simp [Token.datatypeText, String.append_assoc]
    rw [htext]
    have hrefused : Refuses (expect ")") ("^^<" ++ ((d ++ ">") ++ ")")) :=
      refuses_expect (by decide) _
    refine Takes.or_right ((takes_expect "^^<").bind ?_) (hrefused.bind _)
    refine (takes_upTo rfl (h d rfl)).bind ?_
    exact (takes_expect ")").map _

theorem takes_literal {literal : Token} (h : literal.Delimited) :
    Takes literalReader (literal.text ++ ")") literal := by
  cases literal with
  | literal quoted datatype =>
    have htext : Token.text (.literal quoted datatype) ++ ")" =
        "\"" ++ ((String.ofList quoted ++ "\"") ++ (Token.datatypeText datatype ++ ")")) := by
      simp [Token.text, String.append_assoc]
    rw [htext]
    refine Takes.or_left ((takes_expect "\"").bind ?_) _
    refine (takes_quoted h.1).bind ?_
    exact (takes_ending h.2).map _
  | locator locator =>
    have htext : Token.text (.locator locator) ++ ")" = "<" ++ ((locator ++ ">") ++ ")") := by
      simp [Token.text, bracketed, String.append_assoc]
    rw [htext]
    have hrefused : Refuses (expect "\"") ("<" ++ ((locator ++ ">") ++ ")")) :=
      refuses_expect (by decide) _
    refine Takes.or_right ((takes_expect "<").bind ?_) (hrefused.bind _)
    refine (takes_upTo rfl h).bind ?_
    exact (takes_expect ")").map _
  | name _ => exact h.elim

/-! ## Texts and the conditions they say -/

/-- The text says the condition. -/
structure Written (text : String) (c : Condition) : Prop where
  /-- the text opens a bracket, perhaps after a negation -/
  opens : ∃ more, text = "(" ++ more ∨ text = "!(" ++ more
  /-- it is read as the condition, whatever follows -/
  takes : ∀ fuel, text.length ≤ fuel → Takes (reader fuel) text c

theorem Written.refuses {piece : String} (h : Written text c) (hbracket : Apart piece "(")
    (hnegation : Apart piece "!(") (more : String) : Refuses (expect piece) (text ++ more) := by
  obtain ⟨body, rfl | rfl⟩ := h.opens
  · rw [String.append_assoc]
    exact refuses_expect hbracket _
  · rw [String.append_assoc]
    exact refuses_expect hnegation _

theorem Written.read? (h : Written text c) (rest : List Char) :
    read? (text.toList ++ rest) = some (c, rest) := by
  have hlength : text.length ≤ (text.toList ++ rest).length := by
    rw [List.length_append, String.length_toList]
    exact Nat.le_add_right _ _
  exact h.takes _ hlength rest

theorem Written.readClause? (h : Written text c) (rest : List Char) :
    readClause? ((Filter.clauseText text).toList ++ rest) = some (c, rest) := by
  have htext : Filter.clauseText text = "FILTER(" ++ (text ++ ")") := String.append_assoc
  have hlength : text.length ≤ ((Filter.clauseText text).toList ++ rest).length := by
    rw [htext, List.length_append, String.length_toList, String.length_append, String.length_append]
    omega
  have hclause : Takes (clauseReader ((Filter.clauseText text).toList ++ rest).length)
      (Filter.clauseText text) c := by
    rw [htext] at hlength ⊢
    refine (takes_expect "FILTER(").bind ?_
    refine (h.takes _ hlength).bind ?_
    exact (takes_expect ")").map _
  exact hclause rest

/-- What a bracket opens is read one level further down. -/
theorem written_bracketed {body : String}
    (h : ∀ fuel, body.length ≤ fuel → Takes (bodyReader (reader fuel) fuel) body c) :
    Written ("(" ++ body) c where
  opens := ⟨body, .inl rfl⟩
  takes := by
    intro fuel hfuel
    rw [String.length_append] at hfuel
    have hone : "(".length = 1 := rfl
    -- the bracket pays for the level
    cases fuel with
    | zero => omega
    | succ fuel =>
      have hrefused : Refuses (expect "!(") ("(" ++ body) := refuses_expect (by decide) _
      have hbody := h fuel (by omega)
      exact ((takes_expect "(").bind hbody).or_right (hrefused.bind _)

theorem Written.not (h : Written text c) : Written ("!(" ++ text ++ ")") (.not c) where
  opens := ⟨text ++ ")", .inr String.append_assoc⟩
  takes := by
    intro fuel hfuel
    rw [String.append_assoc] at hfuel ⊢
    rw [String.length_append, String.length_append] at hfuel
    have htwo : "!(".length = 2 := rfl
    cases fuel with
    | zero => omega
    | succ fuel =>
      refine Takes.or_left ((takes_expect "!(").bind ?_) _
      refine (h.takes fuel (by omega)).bind ?_
      exact (takes_expect ")").map _

/-! ### Matches -/

theorem takes_match (htoken : IsVariableToken token) (pattern : String) :
    Takes matchReader
      ("regex(" ++ ((token ++ ",") ++ ("\"" ++ ((escape pattern ++ "\"") ++ ",\"i\"))"))))
      (.like token pattern) := by
  have hpattern : String.ofList (unescapeChars (escapeChars pattern.toList)) = pattern := by
    rw [unescapeChars_escapeChars, String.ofList_toList]
  have hread : Takes matchReader
      ("regex(" ++ ((token ++ ",") ++ ("\"" ++ ((escape pattern ++ "\"") ++ ",\"i\"))"))))
      (.like token (String.ofList (unescapeChars (escapeChars pattern.toList)))) := by
    refine (takes_expect "regex(").bind ?_
    refine (takes_variable htoken (by decide) rfl).bind ?_
    refine (takes_expect "\"").bind ?_
    refine (takes_quoted (quotable_escapeChars pattern.toList)).bind ?_
    exact (takes_expect ",\"i\"))").map _
  rwa [hpattern] at hread

theorem written_like (htoken : IsVariableToken token) (pattern : String) :
    Written ("(regex(" ++ token ++ ",\"" ++ escape pattern ++ "\",\"i\"))")
      (.like token pattern) := by
  have htext : "(regex(" ++ token ++ ",\"" ++ escape pattern ++ "\",\"i\"))" = "(" ++
      ("regex(" ++ ((token ++ ",") ++ ("\"" ++ ((escape pattern ++ "\"") ++ ",\"i\"))")))) := by
    rw [← String.toList_inj]
    simp
  rw [htext]
  exact written_bracketed fun fuel _ => (takes_match htoken pattern).or_left _

/-! ### Comparisons -/

/-- A comparison is no match, so it is read as a comparison. -/
theorem takes_comparison {op : FilterOp} {symbol operand : String} {inner : Reader Condition}
    (htoken : IsVariableToken token) (hsymbol : op.symbol? = some symbol)
    (h : Takes (operandReader inner token op) operand c) (fuel : Nat) :
    Takes (bodyReader inner fuel) ((token ++ " ") ++ ((symbol ++ " ") ++ operand)) c := by
  have hrefused : Refuses matchReader ((token ++ " ") ++ ((symbol ++ " ") ++ operand)) := by
    obtain ⟨name, rfl, -⟩ := htoken
    rw [String.append_assoc, String.append_assoc]
    exact (refuses_expect (by decide) _).bind _
  refine Takes.or_right (Takes.or_left ?_ _) hrefused
  refine (takes_variable htoken (by decide) rfl).bind ?_
  exact (takes_sign hsymbol).bind h

theorem comparison_eq (token symbol operand : String) :
    "(" ++ token ++ " " ++ symbol ++ " " ++ operand ++ ")" =
      "(" ++ ((token ++ " ") ++ ((symbol ++ " ") ++ (operand ++ ")"))) := by
  simp only [String.append_assoc]

theorem written_compare {op : FilterOp} {symbol : String} {literal : Token}
    (htoken : IsVariableToken token) (hsymbol : op.symbol? = some symbol)
    (hliteral : literal.Delimited) :
    Written ("(" ++ token ++ " " ++ symbol ++ " " ++ literal.text ++ ")")
      (.compare token op literal.text) := by
  rw [comparison_eq]
  refine written_bracketed fun fuel _ => takes_comparison htoken hsymbol ?_ fuel
  exact ((takes_literal hliteral).map _).or_left _

theorem Written.compareWith {op : FilterOp} {symbol : String} (htoken : IsVariableToken token)
    (hsymbol : op.symbol? = some symbol) (h : Written text c) :
    Written ("(" ++ token ++ " " ++ symbol ++ " " ++ text ++ ")") (.compareWith token op c) := by
  rw [comparison_eq]
  refine written_bracketed fun fuel hfuel => takes_comparison htoken hsymbol ?_ fuel
  have hrefused : Refuses literalReader (text ++ ")") := by
    have hquote : Refuses (expect "\"") (text ++ ")") := h.refuses (by decide) (by decide) _
    have hangle : Refuses (expect "<") (text ++ ")") := h.refuses (by decide) (by decide) _
    exact (hquote.bind _).or (hangle.bind _)
  have hlength : text.length ≤ fuel := by
    simp only [String.length_append] at hfuel
    omega
  refine Takes.or_right ?_ (hrefused.bind _)
  refine (h.takes fuel hlength).bind ?_
  exact (takes_expect ")").map _

/-! ### Joins -/

/-- The terms behind the first one, each with the connective before it. -/
def following (connective : String) : List String → String
  | [] => ""
  | text :: texts => connective ++ (text ++ following connective texts)

theorem intercalate_cons (connective text : String) (texts : List String) :
    connective.intercalate (text :: texts) = text ++ following connective texts := by
  induction texts generalizing text with
  | nil => simp [following]
  | cons next texts ih => rw [String.intercalate_cons_cons, ih, following, String.append_assoc]

theorem takes_terms {connective : String} {inner : Reader Condition} {texts : List String}
    {cs : List Condition} (hconnective : Apart ")" connective)
    (h : List.Forall₂ (Takes inner) texts cs) :
    ∀ {fuel : Nat}, texts.length < fuel →
      Takes (termsReader connective inner fuel) (following connective texts ++ ")") cs := by
  induction h with
  | nil =>
    intro fuel hfuel
    obtain ⟨fuel, rfl⟩ := Nat.exists_eq_add_one.2 hfuel
    exact ((takes_expect ")").map _).or_left _
  | @cons text first texts others hfirst hothers ih =>
    intro fuel hfuel
    obtain ⟨fuel, rfl⟩ := Nat.exists_eq_add_one.2 (Nat.zero_lt_of_lt hfuel)
    have htext : following connective (text :: texts) ++ ")" =
        connective ++ (text ++ (following connective texts ++ ")")) := by
      rw [following, String.append_assoc, String.append_assoc]
    rw [htext]
    have hrefused := refuses_expect hconnective (text ++ (following connective texts ++ ")"))
    refine Takes.or_right ((takes_expect connective).bind ?_) (hrefused.bind _)
    refine hfirst.bind ?_
    exact (ih (Nat.lt_of_succ_lt_succ hfuel)).map _

theorem length_le_following {connective : String} (hconnective : 0 < connective.length)
    (texts : List String) : texts.length ≤ (following connective texts).length := by
  induction texts with
  | nil => exact Nat.zero_le _
  | cons text texts ih =>
    rw [following, String.length_append, String.length_append, List.length_cons]
    omega

theorem forall₂_takes {connective : String} {texts : List String} {cs : List Condition}
    (h : List.Forall₂ Written texts cs) {fuel : Nat}
    (hfuel : (following connective texts).length ≤ fuel) :
    List.Forall₂ (Takes (reader fuel)) texts cs := by
  induction h with
  | nil => exact .nil
  | cons hfirst _ ih =>
    rw [following, String.length_append, String.length_append] at hfuel
    exact .cons (hfirst.takes fuel (by omega)) (ih (by omega))

/-- The terms behind the first one are read to the closing bracket. -/
theorem takes_following {connective : String} {texts : List String} {cs : List Condition}
    (hconnective : Apart ")" connective) (hlength : 0 < connective.length)
    (h : List.Forall₂ Written texts cs) {fuel : Nat}
    (hfuel : (following connective texts ++ ")").length ≤ fuel) :
    Takes (termsReader connective (reader fuel) fuel) (following connective texts ++ ")") cs := by
  have hone : ")".length = 1 := rfl
  have hcount := length_le_following hlength texts
  rw [String.length_append] at hfuel
  have htexts : (following connective texts).length ≤ fuel := by omega
  exact takes_terms hconnective (forall₂_takes h htexts) (by omega)

/-- What begins with a connective goes on with no other one. -/
theorem refuses_terms {connective other : String} (hclose : Apart ")" other)
    (hother : Apart connective other) (inner : Reader Condition) (fuel : Nat) (more : String) :
    Refuses (termsReader connective inner fuel) (other ++ more) := by
  cases fuel with
  | zero => exact refuses_failure _
  | succ fuel => exact ((refuses_expect hclose _).bind _).or ((refuses_expect hother _).bind _)

/-- A join is neither a match nor a comparison, so it is read as a join. -/
theorem Written.join {first : Condition} {others : String} (h : Written text first)
    (hothers : ∀ fuel, others.length ≤ fuel →
      Takes (othersReader (reader fuel) fuel first) others c) :
    Written ("(" ++ (text ++ others)) c := by
  refine written_bracketed fun fuel hfuel => ?_
  rw [String.length_append] at hfuel
  -- the first term opens with a bracket, which a match and a variable do not
  have hmatch : Refuses (expect "regex(") (text ++ others) :=
    h.refuses (by decide) (by decide) others
  have hcomparison : Refuses (expect "?") (text ++ others) :=
    h.refuses (by decide) (by decide) others
  refine Takes.or_right (Takes.or_right ?_ ((hcomparison.bind _).bind _)) (hmatch.bind _)
  refine (h.takes fuel (by omega)).bind ?_
  exact hothers fuel (by omega)

section

variable {first : Condition} {texts : List String} {cs : List Condition}

theorem takes_others_all (h : List.Forall₂ Written texts cs) {fuel : Nat}
    (hfuel : (following "&&" texts ++ ")").length ≤ fuel) :
    Takes (othersReader (reader fuel) fuel first) (following "&&" texts ++ ")")
      (.all (first :: cs)) :=
  ((takes_following (by decide) (by decide) h hfuel).map _).or_left _

theorem takes_others_any (h : List.Forall₂ Written texts cs) {fuel : Nat}
    (hfuel : (following "||" texts ++ ")").length ≤ fuel) :
    Takes (othersReader (reader fuel) fuel first) (following "||" texts ++ ")")
      (either (first :: cs)) := by
  cases h with
  -- nothing is joined, so there is no connective to go by
  | nil => exact takes_others_all .nil hfuel
  | @cons next second texts others hnext hothers =>
    have hrefused : Refuses (termsReader "&&" (reader fuel) fuel)
        (following "||" (next :: texts) ++ ")") := by
      rw [following, String.append_assoc]
      exact refuses_terms (by decide) (by decide) _ _ _
    have hread := takes_following (by decide) (by decide) (.cons hnext hothers) hfuel
    exact (hread.map _).or_right (hrefused.bind _)

theorem join_eq (connective text : String) (texts : List String) :
    "(" ++ connective.intercalate (text :: texts) ++ ")" =
      "(" ++ (text ++ (following connective texts ++ ")")) := by
  rw [intercalate_cons, String.append_assoc, String.append_assoc]

theorem written_all (h : List.Forall₂ Written texts cs) (hne : texts ≠ []) :
    Written ("(" ++ "&&".intercalate texts ++ ")") (.all cs) := by
  cases h with
  | nil => exact absurd rfl hne
  | cons hfirst hothers =>
    rw [join_eq]
    exact hfirst.join fun fuel hfuel => takes_others_all hothers hfuel

theorem written_either (h : List.Forall₂ Written texts cs) (hne : texts ≠ []) :
    Written ("(" ++ "||".intercalate texts ++ ")") (either cs) := by
  cases h with
  | nil => exact absurd rfl hne
  | cons hfirst hothers =>
    rw [join_eq]
    exact hfirst.join fun fuel hfuel => takes_others_any hothers hfuel

end

end Condition

end LinkedData
