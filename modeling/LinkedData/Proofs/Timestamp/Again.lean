import LinkedData.Proofs.Literal.RoundTrip
import LinkedData.Proofs.Timestamp.RoundTrip
import LinkedData.Proofs.Value.Again

/-!
# Timestamps from the store

A literal of a timestamp may come with an offset or without one, and is read by one of two
grammars, but it is always written with an offset. The grammar without offsets also knows years
behind a sign, which the other one does not; so a year that has no four digits is read, and
written, and not read again (`decoded_timestamp_again`).

That none of the two grammars takes the text of such a year is told by the colons: there are two in
whatever is read without an offset, and three in every text.
-/

namespace LinkedData

open Literal Text

namespace Timestamp

/-! ## Colons that are read -/

/-- Digits are taken off the front. -/
theorem eq_append_of_readDigits? {least most n : Nat} {cs rest : List Char}
    (h : readDigits? least most cs = some (n, rest)) :
    ∃ digits, (∀ c ∈ digits, c.isDigit = true) ∧ cs = digits ++ rest := by
  rw [readDigits?] at h
  split at h
  · cases h
  · obtain ⟨-, rfl⟩ := Prod.mk.inj (Option.some.inj h)
    have hprefix : (cs.take most).takeWhile Char.isDigit <+: cs :=
      (List.takeWhile_prefix _).trans (List.take_prefix _ _)
    exact ⟨_, fun c hc => List.all_eq_true.1 List.all_takeWhile c hc,
      (List.prefix_iff_eq_append.1 hprefix).symm⟩

theorem readChar?_eq_some_iff {c : Char} {cs rest : List Char} :
    readChar? c cs = some rest ↔ cs = c :: rest := by
  rcases cs with _ | ⟨other, cs⟩
  · exact iff_of_false nofun nofun
  · rw [readChar?, Option.ite_none_right_eq_some, Option.some.injEq, List.cons.injEq]

/-- There is no colon among digits. -/
theorem count_digits {digits : List Char} (h : ∀ c ∈ digits, c.isDigit = true) :
    digits.count ':' = 0 :=
  List.count_eq_zero.2 fun hcolon => Bool.false_ne_true (h ':' hcolon)

theorem count_of_readDigits? {least most n : Nat} {cs rest : List Char}
    (h : readDigits? least most cs = some (n, rest)) : cs.count ':' = rest.count ':' := by
  obtain ⟨digits, hdigits, rfl⟩ := eq_append_of_readDigits? h
  rw [List.count_append, count_digits hdigits, Nat.zero_add]

theorem count_of_readChar? {c : Char} {cs rest : List Char} (h : readChar? c cs = some rest) :
    cs.count ':' = rest.count ':' + if c = ':' then 1 else 0 := by
  obtain rfl := readChar?_eq_some_iff.1 h
  rw [List.count_cons]
  simp only [beq_iff_eq]

theorem count_dropWhile {p : Char → Bool} (h : p ':' = false) (cs : List Char) :
    (cs.dropWhile p).count ':' = cs.count ':' := by
  have hdropped : (cs.takeWhile p).count ':' = 0 := by
    refine List.count_eq_zero.2 fun hcolon => ?_
    have htaken : p ':' = true := List.all_eq_true.1 List.all_takeWhile ':' hcolon
    exact Bool.false_ne_true (h.symm.trans htaken)
  have hsplit := congrArg (List.count ':') (List.takeWhile_append_dropWhile (p := p) (l := cs))
  rw [List.count_append, hdropped, Nat.zero_add] at hsplit
  exact hsplit

theorem count_trimStart (cs : List Char) : (trimStart cs).count ':' = cs.count ':' :=
  count_dropWhile (by decide) cs

theorem count_of_readLoose? {n : Nat} {cs rest : List Char} (h : readLoose? cs = some (n, rest)) :
    cs.count ':' = rest.count ':' :=
  (count_trimStart cs).symm.trans (count_of_readDigits? h)

theorem count_of_readYear? {year : Int} {cs rest : List Char}
    (h : readYear? cs = some (year, rest)) : cs.count ':' = rest.count ':' := by
  rw [readYear?] at h
  rw [← count_trimStart cs]
  split at h
  all_goals
    obtain ⟨⟨n, _⟩, hdigits, hyear⟩ := Option.map_eq_some_iff.1 h
    obtain ⟨-, rfl⟩ := Prod.mk.inj hyear
  · rename_i hsign _
    rw [hsign, List.count_cons_of_ne (by decide)]
    exact count_of_readDigits? hdigits
  · rename_i hsign _
    rw [hsign, List.count_cons_of_ne (by decide)]
    exact count_of_readDigits? hdigits
  · exact count_of_readDigits? hdigits

theorem count_of_readFraction? {n : Nat} {cs rest : List Char}
    (h : readFraction? cs = some (n, rest)) : cs.count ':' = rest.count ':' := by
  unfold readFraction? at h
  split at h
  · obtain ⟨-, h⟩ := Option.ite_none_left_eq_some.1 h
    obtain ⟨-, rfl⟩ := Prod.mk.inj (Option.some.inj h)
    rw [count_dropWhile (by decide), List.count_cons_of_ne (by decide)]
  · obtain ⟨-, rfl⟩ := Prod.mk.inj (Option.some.inj h)
    rfl

/-- What is read without an offset has two colons. -/
theorem count_of_readUnzoned? {s : String} {t : Timestamp} (h : readUnzoned? s = some t) :
    s.toList.count ':' = 2 := by
  rw [readUnzoned?] at h
  obtain ⟨⟨_, _⟩, hyear, h⟩ := Option.bind_eq_some_iff.1 h
  obtain ⟨_, hdash, h⟩ := Option.bind_eq_some_iff.1 h
  obtain ⟨⟨_, _⟩, hmonth, h⟩ := Option.bind_eq_some_iff.1 h
  obtain ⟨_, hdash', h⟩ := Option.bind_eq_some_iff.1 h
  obtain ⟨⟨_, _⟩, hday, h⟩ := Option.bind_eq_some_iff.1 h
  obtain ⟨_, hseparator, h⟩ := Option.bind_eq_some_iff.1 h
  obtain ⟨⟨_, _⟩, hhour, h⟩ := Option.bind_eq_some_iff.1 h
  obtain ⟨_, hcolon, h⟩ := Option.bind_eq_some_iff.1 h
  obtain ⟨⟨_, _⟩, hminute, h⟩ := Option.bind_eq_some_iff.1 h
  obtain ⟨_, hcolon', h⟩ := Option.bind_eq_some_iff.1 h
  obtain ⟨⟨_, _⟩, hsecond, h⟩ := Option.bind_eq_some_iff.1 h
  obtain ⟨⟨_, rest⟩, hfraction, h⟩ := Option.bind_eq_some_iff.1 h
  obtain ⟨hrest, -⟩ := Option.ite_none_right_eq_some.1 h
  obtain rfl := List.isEmpty_iff.1 hrest
  rw [count_of_readYear? hyear, count_of_readChar? hdash, count_of_readLoose? hmonth,
    count_of_readChar? hdash', count_of_readLoose? hday, count_of_readChar? hseparator,
    count_of_readLoose? hhour, count_of_readChar? hcolon, count_of_readLoose? hminute,
    count_of_readChar? hcolon', count_of_readLoose? hsecond, count_of_readFraction? hfraction]
  rfl

/-! ## Colons that are written -/

theorem count_padded (width n : Nat) : (padded width n).toList.count ':' = 0 :=
  count_digits (denotes_padded width n).isDigit

theorem count_yearText (year : Int) : (yearText year).toList.count ':' = 0 := by
  rw [yearText]
  split
  · exact count_padded _ _
  · rw [String.toList_append, List.count_append, count_padded]
    split <;> rfl

theorem count_fractionText (nanosecond : Nat) : (fractionText nanosecond).toList.count ':' = 0 := by
  have hpoint : ∀ width n, ("." ++ padded width n).toList.count ':' = 0 := by
    intro width n
    rw [String.toList_append, List.count_append, count_padded]
    rfl
  rw [fractionText]
  split
  · rfl
  · split
    · exact hpoint _ _
    · split <;> exact hpoint _ _

theorem count_offsetText (offset : Int) : (offsetText offset).toList.count ':' = 1 := by
  rw [toList_offsetText, List.count_cons_of_ne (by split <;> decide), List.count_append,
    List.count_cons_self, count_padded, count_padded]

/-- One of the colons of a text is in the offset. -/
theorem count_text (t : Timestamp) : t.text.toList.count ':' = 3 := by
  simp only [text, String.toList_append, List.count_append, count_yearText, count_padded,
    count_fractionText, count_offsetText]
  rfl

/-! ## Texts that are read -/

/-- No text of a timestamp is read without its offset. -/
theorem readUnzoned?_text (t : Timestamp) : readUnzoned? t.text = none := by
  rcases h : readUnzoned? t.text with _ | other
  · rfl
  · have hcolons : 3 = 2 := (count_text t).symm.trans (count_of_readUnzoned? h)
    exact absurd hcolons (by decide)

/-- The text of a timestamp is read if its year has four digits. -/
theorem read?_text_eq_none {t : Timestamp} (h : ¬ (0 ≤ t.year ∧ t.year ≤ 9999)) :
    read? t.text = none := by
  rcases head?_text_of_year h with hhead | hhead <;> exact read?_eq_none_of_head hhead rfl

end Timestamp

/-! ## Literals -/

theorem expandDatatype_xsdDateTime :
    expandDatatype Vocabulary.xsdDateTime = Vocabulary.xsdDateTime := by
  decide

theorem decodeLiteral_dateTime (codec : Codec) (lexical : String) {datatype : String}
    (h : expandDatatype datatype = Vocabulary.xsdDateTime) :
    codec.decodeLiteral lexical (some datatype) = decodeTimestamp lexical := by
  rw [Codec.decodeLiteral, h, Codec.decodeTyped, if_neg (by decide), if_neg (by decide),
    if_neg (by decide), if_pos rfl]

theorem decodeTimestamp_text {t : Timestamp} (h : 0 ≤ t.year ∧ t.year ≤ 9999) :
    decodeTimestamp t.text = .ok (.timestamp t) := by
  rw [decodeTimestamp, Timestamp.read?_text h]
  rfl

theorem decodeTimestamp_text_eq_error {t : Timestamp} (h : ¬ (0 ≤ t.year ∧ t.year ≤ 9999)) :
    decodeTimestamp t.text = .error (malformed t.text Vocabulary.xsdDateTime) := by
  rw [decodeTimestamp, Timestamp.read?_text_eq_none h, Timestamp.readUnzoned?_text]
  rfl

theorem exists_of_decodeTimestamp {lexical : String} {v : Value}
    (h : decodeTimestamp lexical = .ok v) :
    ∃ t, v = .timestamp t ∧
      (Timestamp.read? lexical).or (Timestamp.readUnzoned? lexical) = some t := by
  rw [decodeTimestamp] at h
  split at h
  · rename_i t ht
    exact ⟨t, (Except.ok.inj h).symm, ht⟩
  · cases h

/-! ## What is read from the store -/

/-- **Timestamps from the store.** Whatever is read as the literal of a timestamp is one, and is
written with its offset. If its year has four digits, what is written is read as the same
timestamp, with all its parts and its offset, both from the literal and from the document of the
timestamp. Otherwise it came without an offset, what is written is refused as a literal, and what
is read from the document is a text. -/
theorem decoded_timestamp_again {codec : Codec} {lexical datatype : String} {v : Value}
    (hdatatype : expandDatatype datatype = Vocabulary.xsdDateTime)
    (h : codec.decodeLiteral lexical (some datatype) = .ok v) :
    ∃ t, v = .timestamp t ∧
      codec.encodeLiteral v = .ok (typed t.text Vocabulary.xsdDateTime) ∧
      (0 ≤ t.year ∧ t.year ≤ 9999 →
        codec.decodeLiteral t.text (some Vocabulary.xsdDateTime) = .ok (.timestamp t) ∧
        (Json.read? v.toJson.compact).map Value.ofJson = some (.timestamp t)) ∧
      (¬ (0 ≤ t.year ∧ t.year ≤ 9999) →
        Timestamp.read? lexical = none ∧
        codec.decodeLiteral t.text (some Vocabulary.xsdDateTime) =
          .error (malformed t.text Vocabulary.xsdDateTime) ∧
        (Json.read? v.toJson.compact).map Value.ofJson = some (.string t.text)) := by
  rw [decodeLiteral_dateTime codec lexical hdatatype] at h
  obtain ⟨t, rfl, hread⟩ := exists_of_decodeTimestamp h
  have hagain := decodeLiteral_dateTime codec t.text expandDatatype_xsdDateTime
  have hdocument : (Json.read? (Value.timestamp t).toJson.compact).map Value.ofJson =
      some (Value.ofText t.text) :=
    (Value.Tidy.scalar rfl).read?_compact (Nat.zero_le _) nofun
  refine ⟨t, rfl, rfl, fun hyear => ⟨?_, ?_⟩, fun hyear => ⟨?_, ?_, ?_⟩⟩
  · rw [hagain, decodeTimestamp_text hyear]
  · rw [hdocument, Value.ofText_timestamp hyear]
  · -- with an offset, the year would have been read from four digits
    rcases hoffset : Timestamp.read? lexical with _ | other
    · rfl
    · rw [hoffset, Option.some_or, Option.some.injEq] at hread
      exact absurd (Timestamp.year_of_read? (hread ▸ hoffset)) hyear
  · rw [hagain, decodeTimestamp_text_eq_error hyear]
  · rw [hdocument, Value.ofText_text_of_year hyear]

/-- A leap second, read without an offset. -/
def leapSecond : Timestamp :=
  ⟨2016, 12, 31, 23, 59, 60, 500000000, 0, by decide⟩

theorem decoded_timestamp_again_leapSecond :
    Codec.empty.decodeLiteral "2016-12-31T23:59:60.5" (some "xsd:dateTime") =
        .ok (.timestamp leapSecond) ∧
      leapSecond.text = "2016-12-31T23:59:60.500+00:00" ∧
      Codec.empty.decodeLiteral leapSecond.text (some Vocabulary.xsdDateTime) =
        .ok (.timestamp leapSecond) ∧
      (Json.read? (Value.timestamp leapSecond).toJson.compact).map Value.ofJson =
        some (.timestamp leapSecond) := by
  have hdatatype : expandDatatype "xsd:dateTime" = Vocabulary.xsdDateTime := by decide
  have hparts : (Timestamp.read? "2016-12-31T23:59:60.5").or
      (Timestamp.readUnzoned? "2016-12-31T23:59:60.5") = some leapSecond := by decide +kernel
  have hread : Codec.empty.decodeLiteral "2016-12-31T23:59:60.5" (some "xsd:dateTime") =
      .ok (.timestamp leapSecond) := by
    rw [decodeLiteral_dateTime _ _ hdatatype, decodeTimestamp, hparts]
  obtain ⟨t, heq, -, hagain, -⟩ := decoded_timestamp_again hdatatype hread
  obtain rfl := Value.timestamp.inj heq
  exact ⟨hread, by decide +kernel, hagain (by decide)⟩

/-- A year of five digits, read without an offset. -/
def distantYear : Timestamp :=
  ⟨12345, 1, 1, 0, 0, 0, 0, 0, by decide⟩

/-- The year is read, and what is written for it is not. -/
theorem distantYear_not_read_again :
    Codec.empty.decodeLiteral "+12345-01-01T00:00:00" (some Vocabulary.xsdDateTime) =
        .ok (.timestamp distantYear) ∧
      distantYear.text = "+12345-01-01T00:00:00+00:00" ∧
      Codec.empty.encodeLiteral (.timestamp distantYear) =
        .ok (typed distantYear.text Vocabulary.xsdDateTime) ∧
      Codec.empty.decodeLiteral distantYear.text (some Vocabulary.xsdDateTime) =
        .error (malformed distantYear.text Vocabulary.xsdDateTime) ∧
      Value.ofJson (Value.timestamp distantYear).toJson = .string distantYear.text := by
  have hparts : (Timestamp.read? "+12345-01-01T00:00:00").or
      (Timestamp.readUnzoned? "+12345-01-01T00:00:00") = some distantYear := by decide +kernel
  have hyear : ¬ (0 ≤ distantYear.year ∧ distantYear.year ≤ 9999) := by decide
  refine ⟨?_, by decide +kernel, rfl, ?_, ?_⟩
  · rw [decodeLiteral_dateTime _ _ expandDatatype_xsdDateTime, decodeTimestamp, hparts]
  · rw [decodeLiteral_dateTime _ _ expandDatatype_xsdDateTime, decodeTimestamp_text_eq_error hyear]
  · rw [Value.toJson, Value.ofJson, Value.ofText_text_of_year hyear]

end LinkedData
