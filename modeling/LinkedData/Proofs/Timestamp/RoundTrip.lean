import LinkedData.Proofs.Text.Digits
import LinkedData.Timestamp.Printer
import LinkedData.Timestamp.Reader

/-!
# Timestamps read back

A timestamp whose year has four digits is written in a form that is read back, with all its parts
and its offset (`Timestamp.read?_text`). Each part is written in a fixed width, so each is read
up to where the next one begins.
-/

namespace LinkedData.Timestamp

open Text

/-! ## Numbers of a fixed width -/

theorem toList_padded (width n : Nat) : (padded width n).toList =
    List.replicate (width - (Nat.toDigits 10 n).length) '0' ++ Nat.toDigits 10 n := by
  simp [padded, ← String.length_toList]

theorem denotes_padded (width n : Nat) : Denotes (padded width n).toList n := by
  rw [toList_padded]
  exact (denotes_toDigits n).zeros _

theorem length_padded {width n : Nat} (hwidth : 0 < width) (h : n < 10 ^ width) :
    (padded width n).toList.length = width := by
  have hlength := Nat.toDigits_length 10 n width hwidth h
  rw [toList_padded, List.length_append, List.length_replicate]
  omega

/-- A number of a fixed width is read, whatever follows it. -/
theorem readDigits?_padded {width n : Nat} (hwidth : 0 < width) (h : n < 10 ^ width)
    (rest : List Char) :
    readDigits? width width ((padded width n).toList ++ rest) = some (n, rest) := by
  have hlength := length_padded hwidth h
  have hdenotes := denotes_padded width n
  have htake : ((padded width n).toList ++ rest).take width = (padded width n).toList := by
    rw [List.take_append_of_le_length (Nat.le_of_eq hlength.symm), List.take_of_length_le
      (Nat.le_of_eq hlength)]
  have hvalue : natOfDigits (padded width n).toList = n := hdenotes.value
  rw [readDigits?, htake, takeWhile_run hdenotes.isDigit]
  simp [hlength, hvalue]

theorem readTwo?_padded {n : Nat} (h : n < 100) (rest : List Char) :
    readTwo? ((padded 2 n).toList ++ rest) = some (n, rest) :=
  readDigits?_padded (by decide) h rest

/-! ## The fraction and the offset -/

/-- A fraction of at most nine digits is read up to what is no digit. -/
theorem readFraction?_padded {width n : Nat} {rest : List Char} (hwidth : 0 < width)
    (hle : width ≤ 9) (h : n < 10 ^ width) (hrest : Stops Char.isDigit rest) :
    readFraction? ('.' :: ((padded width n).toList ++ rest)) =
      some (n * 10 ^ (9 - width), rest) := by
  have hlength := length_padded hwidth h
  have hdenotes := denotes_padded width n
  have hvalue : natOfDigits (padded width n).toList = n := hdenotes.value
  have hkept : (padded width n).toList.take 9 = (padded width n).toList :=
    List.take_of_length_le (hlength.trans_le hle)
  have hne : (padded width n).toList ≠ [] := by
    intro hnil
    rw [hnil, List.length_nil] at hlength
    omega
  rw [readFraction?, hrest.takeWhile_append, hrest.dropWhile_append, takeWhile_run hdenotes.isDigit,
    dropWhile_run hdenotes.isDigit, List.nil_append]
  simp [hne, hkept, hvalue, hlength]

theorem readFraction?_fractionText {nanosecond : Nat} {rest : List Char}
    (h : nanosecond < 1000000000) (hpoint : rest.head? ≠ some '.')
    (hrest : Stops Char.isDigit rest) :
    readFraction? ((fractionText nanosecond).toList ++ rest) = some (nanosecond, rest) := by
  rw [fractionText]
  split
  · -- without a fraction the offset is next
    rename_i hzero
    rw [hzero, readFraction?.eq_def]
    split
    · rename_i tail htail
      have htail : rest = '.' :: tail := htail
      exact absurd (congrArg List.head? htail) hpoint
    · rfl
  · split
    · have hread := readFraction?_padded (n := nanosecond / 1000000) (by decide : 0 < 3)
        (by decide) (by omega) hrest
      have hback : nanosecond / 1000000 * 10 ^ (9 - 3) = nanosecond := by omega
      rw [hback] at hread
      simpa using hread
    · split
      · have hread := readFraction?_padded (n := nanosecond / 1000) (by decide : 0 < 6)
          (by decide) (by omega) hrest
        have hback : nanosecond / 1000 * 10 ^ (9 - 6) = nanosecond := by omega
        rw [hback] at hread
        simpa using hread
      · have hread := readFraction?_padded (n := nanosecond) (by decide : 0 < 9) (by decide) h hrest
        simpa using hread

theorem readOffsetMinutes?_padded {minutes : Nat} (h : minutes < 1440) :
    readOffsetMinutes? ((padded 2 (minutes / 60)).toList ++
      ':' :: (padded 2 (minutes % 60)).toList) = some (minutes, []) := by
  have hminutes := readTwo?_padded (n := minutes % 60) (by omega) []
  rw [List.append_nil] at hminutes
  have hsmall : ¬ 60 ≤ minutes % 60 := by omega
  have hback : minutes / 60 * 60 + minutes % 60 = minutes := by omega
  rw [readOffsetMinutes?, readTwo?_padded (by omega)]
  simp [readChar?, hminutes, hsmall, hback]

theorem toList_offsetText (offset : Int) : (offsetText offset).toList =
    (if offset < 0 then '-' else '+') :: ((padded 2 (offset.natAbs / 60)).toList ++
      ':' :: (padded 2 (offset.natAbs % 60)).toList) := by
  rw [offsetText]
  split <;> simp

theorem readOffset?_offsetText {offset : Int} (h : -1440 < offset ∧ offset < 1440) :
    readOffset? (offsetText offset).toList = some (offset, []) := by
  have hminutes := @readOffsetMinutes?_padded offset.natAbs (by omega)
  rw [toList_offsetText, readOffset?]
  by_cases hneg : offset < 0
  · have hback : -(offset.natAbs : Int) = offset := by omega
    simp [hneg, hminutes, hback, -Nat.cast_natAbs]
  · have hback : (offset.natAbs : Int) = offset := by omega
    simp [hneg, hminutes, hback, -Nat.cast_natAbs]

/-- The offset begins with a sign. -/
theorem head?_offsetText (offset : Int) :
    (offsetText offset).toList.head? = some '-' ∨ (offsetText offset).toList.head? = some '+' := by
  rw [toList_offsetText]
  split
  · exact .inl rfl
  · exact .inr rfl

/-! ## A whole timestamp -/

theorem toList_text {t : Timestamp} (h : 0 ≤ t.year ∧ t.year ≤ 9999) :
    t.text.toList = (padded 4 t.year.toNat).toList ++ '-' :: ((padded 2 t.month).toList ++
      '-' :: ((padded 2 t.day).toList ++ 'T' :: ((padded 2 t.hour).toList ++
      ':' :: ((padded 2 t.minute).toList ++ ':' :: ((padded 2 t.second).toList ++
      ((fractionText t.nanosecond).toList ++ (offsetText t.offset).toList)))))) := by
  rw [text, yearText, if_pos h]
  simp

/-- The text begins with a digit of the year. -/
theorem head?_text {t : Timestamp} (h : 0 ≤ t.year ∧ t.year ≤ 9999) :
    ∃ c, t.text.toList.head? = some c ∧ c.isDigit = true := by
  have hlength := @length_padded 4 t.year.toNat (by decide) (by omega)
  have hdigits := (denotes_padded 4 t.year.toNat).isDigit
  rw [toList_text h]
  rcases hpadded : (padded 4 t.year.toNat).toList with _ | ⟨c, cs⟩
  · rw [hpadded] at hlength
    cases hlength
  · rw [hpadded] at hdigits
    exact ⟨c, rfl, hdigits c List.mem_cons_self⟩

variable {α : Type}

theorem bind_readTwo? {n : Nat} (h : n < 100) (rest : List Char) (f : Nat × List Char → Option α) :
    (readTwo? ((padded 2 n).toList ++ rest) >>= f) = f (n, rest) := by
  rw [readTwo?_padded h]
  rfl

theorem bind_readChar? (c : Char) (rest : List Char) (f : List Char → Option α) :
    (readChar? c (c :: rest) >>= f) = f rest := by
  rw [readChar?, if_pos rfl]
  rfl

theorem bind_readSeparator? (rest : List Char) (f : List Char → Option α) :
    (readSeparator? ('T' :: rest) >>= f) = f rest :=
  rfl

/-- A timestamp with a year of four digits is read back from its text. -/
theorem read?_text {t : Timestamp} (h : 0 ≤ t.year ∧ t.year ≤ 9999) : read? t.text = some t := by
  obtain ⟨-, hmonth, hday, hhour, hminute, hsecond, hnanosecond, hoffset⟩ := t.inRange
  have hdays : t.day < 100 := by
    have hlast : Calendar.daysInMonth t.year t.month ≤ 31 := by
      rw [Calendar.daysInMonth]
      split <;> split <;> omega
    omega
  have hyear : (t.year.toNat : Int) = t.year := by omega
  have hfraction := @readFraction?_fractionText _ (offsetText t.offset).toList hnanosecond
    (by rcases head?_offsetText t.offset with h | h <;> simp [h])
    (by
      intro c hc
      rcases head?_offsetText t.offset with h | h <;>
        · rw [h] at hc
          obtain rfl := Option.some.inj hc
          rfl)
  rw [read?, toList_text h, readDigits?_padded (by decide) (by omega)]
  -- each reader is done with before what comes behind it is looked at
  simp only [↓Option.bind_eq_bind, ↓Option.bind_some, ↓bind_readChar?, ↓bind_readSeparator?,
    ↓bind_readTwo? (show t.month < 100 by omega), ↓bind_readTwo? hdays,
    ↓bind_readTwo? (show t.hour < 100 by omega), ↓bind_readTwo? (show t.minute < 100 by omega),
    ↓bind_readTwo? (show t.second < 100 by omega), hfraction, readOffset?_offsetText hoffset,
    List.isEmpty_nil, if_true, hyear]
  exact ofParts?_parts t

/-! ## What is read is written with four digits -/

theorem lt_of_readDigits? {least most n : Nat} {cs rest : List Char}
    (h : readDigits? least most cs = some (n, rest)) : n < 10 ^ most := by
  rw [readDigits?] at h
  split at h
  · cases h
  · obtain ⟨rfl, -⟩ := Prod.mk.inj (Option.some.inj h)
    have hdenotes : Denotes ((cs.take most).takeWhile Char.isDigit) (natOfDigits _) :=
      ⟨fun c hc => List.all_eq_true.1 List.all_takeWhile c hc, rfl⟩
    have hlength : ((cs.take most).takeWhile Char.isDigit).length ≤ most :=
      (List.takeWhile_prefix _).length_le.trans (List.length_take_le _ _)
    exact Nat.lt_of_lt_of_le hdenotes.lt (Nat.pow_le_pow_right (by decide) hlength)

theorem year_of_ofParts? {year : Int} {month day hour minute second nanosecond : Nat}
    {offset : Int} {t : Timestamp}
    (h : ofParts? year month day hour minute second nanosecond offset = some t) :
    t.year = year := by
  rw [ofParts?] at h
  split at h
  · obtain rfl := Option.some.inj h
    rfl
  · cases h

/-- The year of a timestamp with an offset is read from four digits. -/
theorem year_of_read? {s : String} {t : Timestamp} (h : read? s = some t) :
    0 ≤ t.year ∧ t.year ≤ 9999 := by
  rw [read?] at h
  obtain ⟨⟨year, _⟩, hyear, h⟩ := Option.bind_eq_some_iff.1 h
  -- five times a separator and a number, then the fraction and the offset
  iterate 5
    obtain ⟨_, -, h⟩ := Option.bind_eq_some_iff.1 h
    obtain ⟨⟨_, _⟩, -, h⟩ := Option.bind_eq_some_iff.1 h
  iterate 2 obtain ⟨⟨_, _⟩, -, h⟩ := Option.bind_eq_some_iff.1 h
  have hparts : ofParts? year _ _ _ _ _ _ _ = some t := (Option.ite_none_right_eq_some.1 h).2
  have hlt := lt_of_readDigits? hyear
  have heq := year_of_ofParts? hparts
  omega

end LinkedData.Timestamp
