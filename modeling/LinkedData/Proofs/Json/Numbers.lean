import LinkedData.Json.Printer
import LinkedData.Json.Reader
import LinkedData.Proofs.Json.WellFormed
import LinkedData.Proofs.Text.Digits

/-!
# Numbers in documents

A number ends where something follows that cannot belong to it, and inside a document only a
comma or a closing bracket follows (`Ends`). So a number that is read back from its own text is
read back wherever it stands (`Number.ReadsBack.readValue?`). Whole numbers are always read back
(`readsBack_natural`, `readsBack_negative`).
-/

namespace LinkedData.Json

open Text

/-- What can follow a value in a document: nothing, a comma, or a closing bracket. -/
def Ends (rest : List Char) : Prop :=
  ∀ c, rest.head? = some c → c = ',' ∨ c = ']' ∨ c = '\x7d'

theorem Ends.nil : Ends [] :=
  nofun

theorem Ends.comma (rest : List Char) : Ends (',' :: rest) := by
  intro c hc
  exact .inl (Option.some.inj hc).symm

theorem Ends.bracket (rest : List Char) : Ends (']' :: rest) := by
  intro c hc
  exact .inr (.inl (Option.some.inj hc).symm)

theorem Ends.brace (rest : List Char) : Ends ('\x7d' :: rest) := by
  intro c hc
  exact .inr (.inr (Option.some.inj hc).symm)

/-- What follows a value belongs to no class of characters that can be in it. -/
theorem Ends.stops {rest : List Char} (h : Ends rest) {p : Char → Bool}
    (hp : p ',' = false ∧ p ']' = false ∧ p '\x7d' = false) : Stops p rest := by
  intro c hc
  rcases h c hc with rfl | rfl | rfl
  · exact hp.1
  · exact hp.2.1
  · exact hp.2.2

/-! ## White space -/

theorem skipSpace_cons {c : Char} (h : isSpace c = false) (cs : List Char) :
    skipSpace (c :: cs) = c :: cs :=
  List.dropWhile_cons_of_neg (by simp [h])

theorem skipSpace_append (cs : List Char) {rest : List Char} (h : Ends rest) :
    skipSpace (cs ++ rest) = skipSpace cs ++ rest :=
  (h.stops (by decide)).dropWhile_append cs

theorem skipSpace_ends {rest : List Char} (h : Ends rest) : skipSpace rest = rest := by
  have hnil : skipSpace [] = [] := rfl
  simpa [hnil] using skipSpace_append [] h

/-! ## Numbers and what follows them -/

theorem splitSign_append {cs : List Char} (h : cs ≠ []) (rest : List Char) :
    Binary64.splitSign (cs ++ rest) =
      ((Binary64.splitSign cs).1, (Binary64.splitSign cs).2 ++ rest) := by
  cases cs with
  | nil => exact absurd rfl h
  | cons c cs =>
    by_cases hminus : c = '-'
    · subst hminus
      rfl
    · by_cases hplus : c = '+'
      · subst hplus
        rfl
      · simp [Binary64.splitSign, hminus, hplus]

theorem readExponent?_append {cs r rest : List Char} {exponent : Option Int}
    (h : readExponent? cs = some (exponent, r)) (hrest : Ends rest) :
    readExponent? (cs ++ rest) = some (exponent, r ++ rest) := by
  have hdigits : Stops Char.isDigit rest := hrest.stops (by decide)
  cases cs with
  | nil =>
    obtain ⟨rfl, rfl⟩ := Prod.mk.inj (Option.some.inj h)
    cases rest with
    | nil => rfl
    | cons c rest =>
      have hletter : (c == 'e' || c == 'E') = false := by
        rcases hrest c rfl with rfl | rfl | rfl <;> rfl
      simp [readExponent?, hletter]
  | cons c tail =>
    by_cases hletter : (c == 'e' || c == 'E') = true
    · by_cases htail : tail = []
      · -- a letter alone is no exponent
        subst htail
        simp [readExponent?, hletter, Binary64.splitSign] at h
      · rw [readExponent?, if_pos hletter] at h
        rw [List.cons_append, readExponent?, if_pos hletter, splitSign_append htail]
        dsimp only at h ⊢
        rw [hdigits.takeWhile_append, hdigits.dropWhile_append]
        split at h
        · cases h
        · rename_i hne
          obtain ⟨rfl, rfl⟩ := Prod.mk.inj (Option.some.inj h)
          rw [if_neg hne]
    · rw [readExponent?, if_neg hletter] at h
      obtain ⟨rfl, rfl⟩ := Prod.mk.inj (Option.some.inj h)
      rw [List.cons_append, readExponent?, if_neg hletter]

theorem readNumber?_append {negative : Bool} {cs r rest : List Char} {n : Number}
    (h : readNumber? negative cs = some (n, r)) (hrest : Ends rest) :
    readNumber? negative (cs ++ rest) = some (n, r ++ rest) := by
  have hdigits : Stops Char.isDigit rest := hrest.stops (by decide)
  rw [readNumber?] at h ⊢
  rw [hdigits.takeWhile_append, hdigits.dropWhile_append]
  generalize cs.takeWhile Char.isDigit = whole at h ⊢
  generalize cs.dropWhile Char.isDigit = after at h ⊢
  dsimp only at h ⊢
  split at h
  · cases h
  · rename_i hwhole
    rw [if_neg hwhole]
    split at h
    · -- a point and a fraction
      rename_i tail
      simp only [List.cons_append, hdigits.takeWhile_append, hdigits.dropWhile_append]
      split at h
      · cases h
      · rename_i hfraction
        rw [if_neg hfraction]
        simp only [Option.bind_eq_bind, Option.bind_eq_some_iff, Prod.exists] at h ⊢
        obtain ⟨exponent, r', hexponent, number, hnumber, hend⟩ := h
        obtain ⟨rfl, rfl⟩ := Prod.mk.inj (Option.some.inj hend)
        exact ⟨exponent, _, readExponent?_append hexponent hrest, number, hnumber, rfl⟩
    · -- no point, and none comes behind
      rename_i hpoint
      split
      · rename_i tail htail
        cases after with
        | nil =>
          rcases hrest '.' (congrArg List.head? htail) with hc | hc | hc <;> cases hc
        | cons c after => exact absurd (congrArg (· :: after) (List.cons.inj htail).1) (hpoint _)
      · simp only [Option.bind_eq_bind, Option.bind_eq_some_iff, Prod.exists] at h ⊢
        obtain ⟨exponent, r', hexponent, h⟩ := h
        refine ⟨exponent, _, readExponent?_append hexponent hrest, ?_⟩
        cases exponent with
        | some exponent | none =>
          simp only [Option.bind_eq_some_iff] at h ⊢
          obtain ⟨number, hnumber, hend⟩ := h
          obtain ⟨rfl, rfl⟩ := Prod.mk.inj (Option.some.inj hend)
          exact ⟨number, hnumber, rfl⟩

/-! ## Numbers as documents -/

/-- A number begins with a digit. -/
theorem digit_of_readNumber? {negative : Bool} {cs r : List Char} {n : Number}
    (h : readNumber? negative cs = some (n, r)) : ∃ c tail, cs = c :: tail ∧ c.isDigit = true := by
  cases cs with
  | nil => cases h
  | cons c tail =>
    refine ⟨c, tail, rfl, ?_⟩
    by_contra hc
    rw [readNumber?, List.takeWhile_cons_of_neg hc] at h
    cases h

/-- A number with its sign. -/
def readSigned? : List Char → Option (Number × List Char)
  | '-' :: rest => readNumber? true rest
  | cs => readNumber? false cs

/-- Documents that are numbers are read as numbers with a sign. -/
theorem readValue?_number_iff {fuel depth : Nat} {cs r : List Char} {n : Number} :
    readValue? (fuel + 1) depth cs = some (.number n, r) ↔
      readSigned? (skipSpace cs) = some (n, r) := by
  rw [readValue?]
  generalize skipSpace cs = cs
  constructor
  · intro h
    split at h
    case h_4 => simpa [readSigned?] using h
    case h_8 hquote hbracket hbrace hminus ht hf hn =>
      have hsigned : readSigned? cs = readNumber? false cs := by
        rw [readSigned?.eq_def]
        split
        · exact (hminus _ rfl).elim
        · rfl
      rw [hsigned]
      simpa using h
    -- all other documents begin with a character of their own
    case h_1 => simp at h
    case h_2 =>
      cases depth with
      | zero => cases h
      | succ depth =>
        dsimp only at h
        split at h
        · cases h
        · simp at h
    case h_3 =>
      cases depth with
      | zero => cases h
      | succ depth =>
        dsimp only at h
        split at h
        · cases h
        · simp at h
    case h_5 | h_6 | h_7 => cases eq_of_readWord? h
  · intro h
    rw [readSigned?.eq_def] at h
    split at h
    · simp [h]
    · obtain ⟨c, tail, rfl, hdigit⟩ := digit_of_readNumber? h
      have hne : ∀ d : Char, d.isDigit = false → c ≠ d := by
        rintro d hd rfl
        rw [hdigit] at hd
        cases hd
      simp [h, hne '"' rfl, hne '[' rfl, hne '\x7b' rfl, hne 't' rfl, hne 'f' rfl, hne 'n' rfl]

theorem readSigned?_append {cs r rest : List Char} {n : Number}
    (h : readSigned? cs = some (n, r)) (hrest : Ends rest) :
    readSigned? (cs ++ rest) = some (n, r ++ rest) := by
  rw [readSigned?.eq_def] at h
  split at h
  · exact readNumber?_append h hrest
  · rename_i hminus
    obtain ⟨c, tail, rfl, -⟩ := digit_of_readNumber? h
    have hne : c ≠ '-' := fun hc => hminus tail (hc ▸ rfl)
    rw [List.cons_append, readSigned?.eq_def]
    split
    · rename_i heq
      exact absurd (List.cons.inj heq).1 hne
    · exact readNumber?_append h hrest

/-- The number is read back from its text. -/
def Number.ReadsBack (n : Number) : Prop :=
  read? n.text = some (.number n)

/-- A number that is read back from its own text is read back wherever it stands. -/
theorem Number.ReadsBack.readValue? {n : Number} (h : n.ReadsBack) {rest : List Char}
    (hrest : Ends rest) (fuel depth : Nat) :
    ∃ r, Json.readValue? (fuel + 1) depth (n.text.toList ++ rest) = some (.number n, r) ∧
      skipSpace r = skipSpace rest := by
  rw [ReadsBack, read?] at h
  obtain ⟨⟨document, r⟩, hread, h⟩ := Option.bind_eq_some_iff.1 h
  dsimp only at h
  split at h
  · rename_i hspace
    obtain rfl := Option.some.inj h
    rw [readValue?_number_iff] at hread
    refine ⟨r ++ rest, ?_, ?_⟩
    · rw [readValue?_number_iff, skipSpace_append _ hrest]
      exact readSigned?_append hread hrest
    · rw [skipSpace_append _ hrest, List.isEmpty_iff.1 hspace, skipSpace_ends hrest]
      rfl
  · cases h

/-! ## Whole numbers -/

/-- No number but zero is written with a zero in front. -/
theorem head?_toDigits {n : Nat} (h : 1 < (Nat.toDigits 10 n).length) :
    (Nat.toDigits 10 n).head? ≠ some '0' := by
  intro hzero
  rcases hdigits : Nat.toDigits 10 n with _ | ⟨c, tail⟩
  · rw [hdigits] at hzero
    cases hzero
  · have hdenotes := denotes_toDigits n
    rw [hdigits] at h hzero hdenotes
    obtain rfl := Option.some.inj hzero
    -- without the zero the number would be the same, but shorter
    have htail : Denotes tail n :=
      ⟨fun c hc => hdenotes.isDigit c (List.mem_cons_of_mem _ hc), hdenotes.value⟩
    have hpos : 0 < tail.length := by
      rw [List.length_cons] at h
      omega
    have hlength := Nat.toDigits_length 10 n tail.length hpos htail.lt
    rw [hdigits, List.length_cons] at hlength
    omega

theorem readNumber?_toDigits (negative : Bool) (n : Nat) :
    readNumber? negative (Nat.toDigits 10 n) =
      (wholeNumber? negative (Nat.toDigits 10 n)).map fun number => (number, []) := by
  have hrun : ∀ c ∈ Nat.toDigits 10 n, c.isDigit = true := fun _ => isDigit_toDigits
  have hne : Nat.toDigits 10 n ≠ [] := Nat.toDigits_ne_nil
  have hzero : ((Nat.toDigits 10 n).head? == some '0' && decide (1 < (Nat.toDigits 10 n).length)) =
      false := by
    by_cases hlong : 1 < (Nat.toDigits 10 n).length
    · simp [head?_toDigits hlong]
    · simp [hlong]
  rw [readNumber?, takeWhile_run hrun, dropWhile_run hrun]
  simp only [List.isEmpty_eq_false_iff.2 hne, hzero, Bool.or_self, Bool.false_eq_true, if_false,
    readExponent?, Option.bind_eq_bind, Option.bind_some]
  cases wholeNumber? negative (Nat.toDigits 10 n) <;> rfl

/-- Without white space in front, a number that is read to its end is read back. -/
theorem readsBack_of_readSigned? {n : Number} (h : readSigned? n.text.toList = some (n, [])) :
    n.ReadsBack := by
  have hspace : skipSpace n.text.toList = n.text.toList := by
    rw [readSigned?.eq_def] at h
    split at h
    · rename_i tail heq
      rw [heq, skipSpace_cons rfl]
    · obtain ⟨c, tail, heq, hdigit⟩ := digit_of_readNumber? h
      have hc : isSpace c = false := by
        simp only [isSpace, Bool.or_eq_false_iff, beq_eq_false_iff_ne]
        refine ⟨⟨⟨?_, ?_⟩, ?_⟩, ?_⟩ <;>
          · rintro rfl
            cases hdigit
      rw [heq, skipSpace_cons hc]
  have hread : readValue? (2 * n.text.toList.length + 1 + 1) maxDepth n.text.toList =
      some (.number n, []) := by
    rw [readValue?_number_iff, hspace]
    exact h
  rw [Number.ReadsBack, read?]
  dsimp only
  rw [hread]
  rfl

theorem readsBack_natural (n : UInt64) : (Number.natural n).ReadsBack := by
  have htext : (Number.natural n).text.toList = Nat.toDigits 10 n.toNat := Nat.toList_repr
  apply readsBack_of_readSigned?
  have hnumber : wholeNumber? false (Nat.toDigits 10 n.toNat) = some (.natural n) := by
    have hvalue := (denotes_toDigits n.toNat).value
    have hfits : ¬ 1 <<< 64 ≤ n.toNat := Nat.not_le_of_lt n.toNat_lt
    rw [wholeNumber?, hvalue]
    simp only [hfits, if_false, Bool.not_false, if_true, UInt64.ofNat_toNat]
  rw [htext, readSigned?.eq_def]
  split
  · rename_i tail heq
    have hminus : '-'.isDigit = true := isDigit_toDigits (heq ▸ List.mem_cons_self)
    cases hminus
  · rw [readNumber?_toDigits, hnumber]
    rfl

theorem readsBack_negative {n : Int64} (h : n < 0) : (Number.negative n).ReadsBack := by
  have hneg : n.toInt < 0 := Int64.lt_iff_toInt_lt.1 h
  have htext : (Number.negative n).text.toList = '-' :: Nat.toDigits 10 n.toInt.natAbs := by
    rcases toList_toString_int n.toInt with ⟨-, hn⟩ | ⟨hl, -⟩
    · omega
    · exact hl
  apply readsBack_of_readSigned?
  have hnumber : wholeNumber? true (Nat.toDigits 10 n.toInt.natAbs) = some (.negative n) := by
    have hvalue := (denotes_toDigits n.toInt.natAbs).value
    have hlow := n.le_toInt
    have hfits : ¬ 1 <<< 64 ≤ n.toInt.natAbs := by
      have hbound : (1 <<< 64 : Nat) = 2 ^ 64 := rfl
      omega
    have hrange : (n.toInt.natAbs = 0 || 1 <<< 63 < n.toInt.natAbs) = false := by
      have hbound : (1 <<< 63 : Nat) = 2 ^ 63 := rfl
      simp only [Bool.or_eq_false_iff, decide_eq_false_iff_not]
      omega
    have hback : -(n.toInt.natAbs : Int) = n.toInt := by omega
    rw [wholeNumber?, hvalue]
    simp only [hfits, if_false, Bool.not_true, Bool.false_eq_true, hrange, hback,
      Int64.ofInt_toInt]
  rw [htext, readSigned?, readNumber?_toDigits, hnumber]
  rfl

end LinkedData.Json
