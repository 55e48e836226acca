import LinkedData.Proofs.Json.Numbers

/-!
# Documents read back

The compact text of a well-formed document is read back as that document, if it is not nested
too deeply and its numbers are read back (`Json.read?_compact`).

What is read ends where the text of the document ends, whatever follows; only white space may
be left, behind numbers. As many steps as twice the characters are enough.
-/

namespace LinkedData.Json

open Text

/-! ## Quoted texts -/

theorem hexValue?_lastHexDigit (value : Nat) :
    hexValue? (lastHexDigit value) = some (value % 16) := by
  rw [lastHexDigit, hexValue?_hexDigit]
  rfl

/-- A control character is read back from its number. -/
theorem readEscape?_control {c : Char} (h : c.toNat < 32) (rest : List Char) :
    readEscape? ('u' :: '0' :: '0' :: lastHexDigit (c.toNat / 16) :: lastHexDigit c.toNat :: rest) =
      some (c, rest) := by
  have hzero : hexValue? '0' = some 0 := by decide
  have hunit : ((0 * 16 + 0) * 16 + c.toNat / 16 % 16) * 16 + c.toNat % 16 = c.toNat := by omega
  have hhex : readHex4?
      ('0' :: '0' :: lastHexDigit (c.toNat / 16) :: lastHexDigit c.toNat :: rest) =
      some (c.toNat, rest) := by
    rw [readHex4?, hzero, hexValue?_lastHexDigit, hexValue?_lastHexDigit]
    simp only [Option.bind_eq_bind, Option.bind_some, hunit]
  have hlow : ¬ 0xD800 ≤ c.toNat := by omega
  have hhigh : ¬ 0xDC00 ≤ c.toNat := by omega
  rw [readEscape?, readUnicode?, hhex]
  simp [hlow, hhigh]

/-- A character is written as an escape from which it is read back, or as it is. -/
theorem escapeChar_cases (c : Char) :
    (∃ escape, escapeChar c = '\\' :: escape ∧
      ∀ rest, readEscape? (escape ++ rest) = some (c, rest)) ∨
    escapeChar c = [c] ∧ c ≠ '"' ∧ c ≠ '\\' ∧ ¬ c.toNat < 32 := by
  rw [escapeChar]
  split
  case isTrue h => exact .inl ⟨['"'], rfl, fun rest => by rw [h]; rfl⟩
  case isFalse hquote =>
    split
    case isTrue h => exact .inl ⟨['\\'], rfl, fun rest => by rw [h]; rfl⟩
    case isFalse hbackslash =>
      have hcode : ∀ n, c.toNat = n → Char.ofNat n = c := by
        rintro n rfl
        exact Char.ofNat_toNat c
      split
      case isTrue h => exact .inl ⟨['b'], rfl, fun rest => by rw [← hcode 8 h]; rfl⟩
      split
      case isTrue h => exact .inl ⟨['f'], rfl, fun rest => by rw [← hcode 12 h]; rfl⟩
      split
      case isTrue h => exact .inl ⟨['n'], rfl, fun rest => by rw [h]; rfl⟩
      split
      case isTrue h => exact .inl ⟨['r'], rfl, fun rest => by rw [h]; rfl⟩
      split
      case isTrue h => exact .inl ⟨['t'], rfl, fun rest => by rw [h]; rfl⟩
      split
      case isTrue h => exact .inl ⟨_, rfl, readEscape?_control h⟩
      case isFalse h => exact .inr ⟨rfl, hquote, hbackslash, h⟩

theorem readChars?_escapeChar (c : Char) (fuel : Nat) (rest : List Char) :
    readChars? (fuel + 1) (escapeChar c ++ rest) =
      (readChars? fuel rest).map fun (cs, rest) => (c :: cs, rest) := by
  rcases escapeChar_cases c with ⟨escape, hescape, hread⟩ | ⟨hplain, hquote, hbackslash, hcontrol⟩
  · rw [hescape, List.cons_append, readChars?, if_neg (by decide), if_pos rfl, hread]
    simp only [Option.bind_eq_bind, Option.bind_some]
    cases readChars? fuel rest <;> rfl
  · rw [hplain, List.singleton_append, readChars?, if_neg hquote, if_neg hbackslash,
      if_neg hcontrol]
    cases readChars? fuel rest <;> rfl

theorem readChars?_escaped (cs rest : List Char) {fuel : Nat} (h : cs.length < fuel) :
    readChars? fuel (cs.flatMap escapeChar ++ '"' :: rest) = some (cs, rest) := by
  induction cs generalizing fuel with
  | nil =>
    obtain ⟨fuel, rfl⟩ := Nat.exists_eq_succ_of_ne_zero (Nat.ne_of_gt h)
    rfl
  | cons c cs ih =>
    rw [List.length_cons] at h
    obtain ⟨fuel, rfl⟩ := Nat.exists_eq_succ_of_ne_zero (show fuel ≠ 0 by omega)
    rw [List.flatMap_cons, List.append_assoc, readChars?_escapeChar, ih (by omega)]
    rfl

theorem escapeChar_ne_nil (c : Char) : escapeChar c ≠ [] := by
  rw [escapeChar.eq_def]
  repeat' split
  all_goals nofun

theorem length_le_flatMap_escapeChar (cs : List Char) :
    cs.length ≤ (cs.flatMap escapeChar).length := by
  induction cs with
  | nil => exact Nat.le_refl _
  | cons c cs ih =>
    have hpos := List.length_pos_iff.2 (escapeChar_ne_nil c)
    rw [List.flatMap_cons, List.length_append, List.length_cons]
    omega

theorem toList_quote (s : String) :
    (quote s).toList = '"' :: (s.toList.flatMap escapeChar ++ ['"']) := by
  simp [quote]

theorem readString?_escaped (s : String) (rest : List Char) :
    readString? (s.toList.flatMap escapeChar ++ '"' :: rest) = some (s, rest) := by
  have hlength := length_le_flatMap_escapeChar s.toList
  rw [readString?, readChars?_escaped _ _ (by rw [List.length_append]; omega)]
  simp

/-! ## Arrays and objects -/

/-- No document begins with a closing bracket. -/
theorem ne_bracket_of_readValue? {fuel depth : Nat} {cs : List Char} {p : Json × List Char}
    (h : readValue? fuel depth cs = some p) (tail : List Char) : skipSpace cs ≠ ']' :: tail := by
  intro heq
  cases fuel with
  | zero => cases h
  | succ fuel =>
    rw [readValue?, heq] at h
    cases h

theorem ne_bracket_of_readItems? {fuel depth : Nat} {cs : List Char} {p : List Json × List Char}
    (h : readItems? fuel depth cs = some p) (tail : List Char) : skipSpace cs ≠ ']' :: tail := by
  cases fuel with
  | zero => cases h
  | succ fuel =>
    obtain ⟨_, hitem, -⟩ := Option.bind_eq_some_iff.1 h
    exact ne_bracket_of_readValue? hitem tail

/-- The text of the elements of an array, without the brackets. -/
def itemsText (items : List Json) : List Char :=
  (",".intercalate (compactItems items)).toList

/-- The text of the members of an object, without the braces. -/
def membersText (members : List (String × Json)) : List Char :=
  (",".intercalate (compactMembers members)).toList

theorem toList_compact_array (items : List Json) :
    (compact (.array items)).toList = '[' :: (itemsText items ++ [']']) := by
  simp [compact, itemsText]

theorem toList_compact_object (members : List (String × Json)) :
    (compact (.object members)).toList = '\x7b' :: (membersText members ++ ['\x7d']) := by
  simp [compact, membersText]

theorem itemsText_single (item : Json) : itemsText [item] = item.compact.toList := by
  simp [itemsText, compactItems]

theorem itemsText_cons (item next : Json) (rest : List Json) :
    itemsText (item :: next :: rest) = item.compact.toList ++ ',' :: itemsText (next :: rest) := by
  simp [itemsText, compactItems]

/-- The text of one member. -/
def memberText (key : String) (value : Json) : List Char :=
  '"' :: (key.toList.flatMap escapeChar ++ '"' :: ':' :: value.compact.toList)

theorem membersText_single (key : String) (value : Json) :
    membersText [(key, value)] = memberText key value := by
  simp [membersText, compactMembers, memberText, toList_quote]

theorem membersText_cons (key : String) (value : Json) (next : String × Json)
    (rest : List (String × Json)) : membersText ((key, value) :: next :: rest) =
      memberText key value ++ ',' :: membersText (next :: rest) := by
  obtain ⟨nextKey, nextValue⟩ := next
  simp [membersText, compactMembers, memberText, toList_quote]

/-! ## Steps of the reader -/

theorem readValue?_empty_array (fuel depth : Nat) (rest : List Char) :
    readValue? (fuel + 1) (depth + 1) ('[' :: ']' :: rest) = some (.array [], rest) := by
  rfl

theorem readValue?_empty_object (fuel depth : Nat) (rest : List Char) :
    readValue? (fuel + 1) (depth + 1) ('\x7b' :: '\x7d' :: rest) = some (.object [], rest) := by
  rfl

theorem readValue?_array {fuel depth : Nat} {items : List Json} {cs rest : List Char}
    (h : readItems? fuel depth cs = some (items, rest)) :
    readValue? (fuel + 1) (depth + 1) ('[' :: cs) = some (.array items, rest) := by
  simp only [readValue?, skipSpace_cons (c := '[') rfl]
  split
  · rename_i tail heq
    exact absurd heq (ne_bracket_of_readItems? h tail)
  · rw [h]
    rfl

theorem readValue?_object {fuel depth : Nat} {members : Fields Json} {cs rest : List Char}
    (h : readMembers? fuel depth [] ('"' :: cs) = some (members, rest)) :
    readValue? (fuel + 1) (depth + 1) ('\x7b' :: '"' :: cs) = some (.object members, rest) := by
  simp only [readValue?, skipSpace_cons (c := '\x7b') rfl, skipSpace_cons (c := '"') rfl, h,
    Option.map_some]
  rfl

theorem readItems?_last {fuel depth : Nat} {item : Json} {cs r rest : List Char}
    (h : readValue? fuel depth cs = some (item, r)) (hr : skipSpace r = ']' :: rest) :
    readItems? (fuel + 1) depth cs = some ([item], rest) := by
  rw [readItems?, h]
  simp only [Option.bind_eq_bind, Option.bind_some, hr]

theorem readItems?_next {fuel depth : Nat} {item : Json} {items : List Json}
    {cs r next rest : List Char} (h : readValue? fuel depth cs = some (item, r))
    (hr : skipSpace r = ',' :: next) (hnext : readItems? fuel depth next = some (items, rest)) :
    readItems? (fuel + 1) depth cs = some (item :: items, rest) := by
  rw [readItems?, h]
  simp only [Option.bind_eq_bind, Option.bind_some, hr, hnext]

theorem memberText_append (key : String) (value : Json) (rest : List Char) :
    memberText key value ++ rest = '"' :: (key.toList.flatMap escapeChar ++
      '"' :: ':' :: (value.compact.toList ++ rest)) := by
  simp [memberText]

theorem readMembers?_last {fuel depth : Nat} {members : Fields Json} {key : String}
    {value : Json} {tail r rest : List Char} (hkey : key ∉ members.names)
    (h : readValue? fuel depth (value.compact.toList ++ tail) = some (value, r))
    (hr : skipSpace r = '\x7d' :: rest) :
    readMembers? (fuel + 1) depth members (memberText key value ++ tail) =
      some (members ++ [(key, value)], rest) := by
  rw [memberText_append, readMembers?, skipSpace_cons rfl]
  simp only [readString?_escaped, Option.bind_eq_bind, Option.bind_some,
    skipSpace_cons (c := ':') rfl, h, hr, Fields.set_of_not_mem hkey]

theorem readMembers?_next {fuel depth : Nat} {members : Fields Json} {key : String}
    {value : Json} {tail r next : List Char} (hkey : key ∉ members.names)
    (h : readValue? fuel depth (value.compact.toList ++ tail) = some (value, r))
    (hr : skipSpace r = ',' :: next) :
    readMembers? (fuel + 1) depth members (memberText key value ++ tail) =
      readMembers? fuel depth (members ++ [(key, value)]) next := by
  rw [memberText_append, readMembers?, skipSpace_cons rfl]
  simp only [readString?_escaped, Option.bind_eq_bind, Option.bind_some,
    skipSpace_cons (c := ':') rfl, h, hr, Fields.set_of_not_mem hkey]

/-! ## Whole documents -/

/-- The text of members begins with a quote. -/
theorem membersText_eq_quote (member : String × Json) (rest : List (String × Json)) :
    ∃ cs, membersText (member :: rest) = '"' :: cs := by
  cases rest with
  | nil => exact ⟨_, membersText_single member.1 member.2⟩
  | cons next rest => exact ⟨_, membersText_cons member.1 member.2 next rest⟩

/-- The text of the document is read as that document, whatever may follow a document. -/
def Readable (j : Json) : Prop :=
  ∀ ⦃fuel depth : Nat⦄ ⦃rest : List Char⦄, j.depth ≤ depth → 2 * j.compact.toList.length < fuel →
    Ends rest → ∃ r, readValue? fuel depth (j.compact.toList ++ rest) = some (j, r) ∧
      skipSpace r = skipSpace rest

/-- The text of the elements, if there are any, is read as those elements. -/
def ReadableItems (items : List Json) : Prop :=
  ∀ ⦃fuel depth : Nat⦄ ⦃rest : List Char⦄, items ≠ [] → depthItems items ≤ depth →
    2 * (itemsText items).length + 1 < fuel →
    readItems? fuel depth (itemsText items ++ ']' :: rest) = some (items, rest)

/-- The text of the members, if there are any, is read as those members behind others. -/
def ReadableMembers (members : List (String × Json)) : Prop :=
  ∀ ⦃fuel depth : Nat⦄ ⦃before : Fields Json⦄ ⦃rest : List Char⦄, members ≠ [] →
    (before.names ++ Fields.names members).Nodup → depthMembers members ≤ depth →
    2 * (membersText members).length + 1 < fuel →
    readMembers? fuel depth before (membersText members ++ '\x7d' :: rest) =
      some (before ++ members, rest)

theorem readable_null : Readable .null := by
  rintro (_ | fuel) depth rest - hfuel -
  · exact absurd hfuel (Nat.not_lt_zero _)
  · exact ⟨rest, rfl, rfl⟩

theorem readable_boolean (b : Bool) : Readable (.boolean b) := by
  rintro (_ | fuel) depth rest - hfuel -
  · exact absurd hfuel (Nat.not_lt_zero _)
  · cases b <;> exact ⟨rest, rfl, rfl⟩

theorem readable_string (s : String) : Readable (.string s) := by
  rintro (_ | fuel) depth rest - hfuel -
  · exact absurd hfuel (Nat.not_lt_zero _)
  · have htext : (Json.string s).compact.toList ++ rest =
        '"' :: (s.toList.flatMap escapeChar ++ '"' :: rest) := by
      rw [compact, toList_quote]
      simp
    refine ⟨rest, ?_, rfl⟩
    simp only [htext, readValue?, skipSpace_cons (c := '"') rfl, readString?_escaped,
      Option.map_some]

theorem Number.ReadsBack.readable {n : Number} (h : n.ReadsBack) : Readable (.number n) := by
  rintro (_ | fuel) depth rest - hfuel hrest
  · exact absurd hfuel (Nat.not_lt_zero _)
  · exact h.readValue? hrest fuel depth

theorem ReadableItems.array {items : List Json} (h : ReadableItems items) :
    Readable (.array items) := by
  intro fuel depth rest hdepth hfuel _
  rw [Json.depth] at hdepth
  rw [toList_compact_array, List.length_cons, List.length_append, List.length_singleton] at hfuel
  obtain ⟨fuel, rfl⟩ := Nat.exists_eq_succ_of_ne_zero (Nat.ne_zero_of_lt hfuel)
  obtain ⟨depth, rfl⟩ := Nat.exists_eq_succ_of_ne_zero (Nat.ne_zero_of_lt hdepth)
  refine ⟨rest, ?_, rfl⟩
  rw [toList_compact_array, List.cons_append, List.append_assoc, List.singleton_append]
  by_cases hnil : items = []
  · subst hnil
    exact readValue?_empty_array fuel depth rest
  · exact readValue?_array (h hnil (Nat.le_of_succ_le_succ hdepth) (by omega))

theorem ReadableMembers.object {members : List (String × Json)} (h : ReadableMembers members)
    (hdistinct : Fields.Distinct members) : Readable (.object members) := by
  intro fuel depth rest hdepth hfuel _
  rw [Json.depth] at hdepth
  rw [toList_compact_object, List.length_cons, List.length_append, List.length_singleton] at hfuel
  obtain ⟨fuel, rfl⟩ := Nat.exists_eq_succ_of_ne_zero (Nat.ne_zero_of_lt hfuel)
  obtain ⟨depth, rfl⟩ := Nat.exists_eq_succ_of_ne_zero (Nat.ne_zero_of_lt hdepth)
  refine ⟨rest, ?_, rfl⟩
  rw [toList_compact_object, List.cons_append, List.append_assoc, List.singleton_append]
  cases members with
  | nil => exact readValue?_empty_object fuel depth rest
  | cons member members =>
    have hread := @h fuel depth [] rest (List.cons_ne_nil _ _) hdistinct
      (Nat.le_of_succ_le_succ hdepth) (by omega)
    obtain ⟨cs, hcs⟩ := membersText_eq_quote member members
    rw [hcs, List.cons_append] at hread ⊢
    exact readValue?_object hread

theorem Readable.items_single {item : Json} (h : Readable item) : ReadableItems [item] := by
  intro fuel depth rest _ hdepth hfuel
  rw [itemsText_single] at hfuel ⊢
  rw [depthItems, depthItems, Nat.max_zero] at hdepth
  obtain ⟨fuel, rfl⟩ := Nat.exists_eq_succ_of_ne_zero (Nat.ne_zero_of_lt hfuel)
  obtain ⟨r, hread, hr⟩ := h hdepth (show _ < fuel by omega) (Ends.bracket rest)
  exact readItems?_last hread hr

theorem Readable.items_cons {item next : Json} {items : List Json} (h : Readable item)
    (hnext : ReadableItems (next :: items)) : ReadableItems (item :: next :: items) := by
  intro fuel depth rest _ hdepth hfuel
  rw [itemsText_cons] at hfuel ⊢
  rw [List.length_append, List.length_cons] at hfuel
  rw [depthItems, Nat.max_le] at hdepth
  obtain ⟨fuel, rfl⟩ := Nat.exists_eq_succ_of_ne_zero (Nat.ne_zero_of_lt hfuel)
  rw [List.append_assoc, List.cons_append]
  obtain ⟨r, hread, hr⟩ := h hdepth.1 (show _ < fuel by omega) (Ends.comma _)
  exact readItems?_next hread hr (hnext (List.cons_ne_nil _ _) hdepth.2 (by omega))

theorem length_memberText (key : String) (value : Json) :
    value.compact.toList.length < (memberText key value).length := by
  simp only [memberText, List.length_cons, List.length_append]
  omega

theorem Readable.members_single {key : String} {value : Json} (h : Readable value) :
    ReadableMembers [(key, value)] := by
  intro fuel depth before rest _ hnames hdepth hfuel
  have hlength := length_memberText key value
  rw [membersText_single] at hfuel ⊢
  rw [depthMembers, depthMembers, Nat.max_zero] at hdepth
  obtain ⟨fuel, rfl⟩ := Nat.exists_eq_succ_of_ne_zero (Nat.ne_zero_of_lt hfuel)
  have hkey : key ∉ before.names := fun hmem =>
    (List.nodup_append.1 hnames).2.2 key hmem key List.mem_cons_self rfl
  obtain ⟨r, hread, hr⟩ := h hdepth (show _ < fuel by omega) (Ends.brace rest)
  exact readMembers?_last hkey hread hr

theorem Readable.members_cons {key : String} {value : Json} {next : String × Json}
    {members : List (String × Json)} (h : Readable value)
    (hnext : ReadableMembers (next :: members)) :
    ReadableMembers ((key, value) :: next :: members) := by
  intro fuel depth before rest _ hnames hdepth hfuel
  have hlength := length_memberText key value
  rw [membersText_cons] at hfuel ⊢
  rw [List.length_append, List.length_cons] at hfuel
  rw [depthMembers, Nat.max_le] at hdepth
  obtain ⟨fuel, rfl⟩ := Nat.exists_eq_succ_of_ne_zero (Nat.ne_zero_of_lt hfuel)
  have hkey : key ∉ before.names := fun hmem =>
    (List.nodup_append.1 hnames).2.2 key hmem key List.mem_cons_self rfl
  have hbehind : ((before ++ [(key, value)]).names ++ Fields.names (next :: members)).Nodup := by
    simpa [Fields.names] using hnames
  rw [List.append_assoc, List.cons_append]
  obtain ⟨r, hread, hr⟩ := h hdepth.1 (show _ < fuel by omega) (Ends.comma _)
  rw [readMembers?_next hkey hread hr, hnext (List.cons_ne_nil _ _) hbehind hdepth.2 (by omega),
    List.append_assoc, List.singleton_append]

mutual

theorem WellFormed.readable : ∀ {j : Json}, j.WellFormed →
    (∀ x, .float x ∈ j.numbers → (Number.float x).ReadsBack) → Readable j
  | .null, _, _ => readable_null
  | .boolean b, _, _ => readable_boolean b
  | .string s, _, _ => readable_string s
  | .number (.natural n), _, _ => (readsBack_natural n).readable
  | .number (.negative _), h, _ => (readsBack_negative h).readable
  | .number (.float x), _, hfloats => (hfloats x (List.mem_singleton_self _)).readable
  | .array _, h, hfloats => (WellFormedItems.readable h hfloats).array
  | .object _, h, hfloats => (WellFormedMembers.readable h.2 hfloats).object h.1

theorem WellFormedItems.readable : ∀ {items : List Json}, WellFormedItems items →
    (∀ x, .float x ∈ numbersItems items → (Number.float x).ReadsBack) → ReadableItems items
  | [], _, _ => fun _ _ _ hne => absurd rfl hne
  | [_], h, hfloats =>
    (WellFormed.readable h.1 fun x hx => hfloats x (List.mem_append_left _ hx)).items_single
  | _ :: _ :: _, h, hfloats =>
    (WellFormed.readable h.1 fun x hx => hfloats x (List.mem_append_left _ hx)).items_cons
      (WellFormedItems.readable h.2 fun x hx => hfloats x (List.mem_append_right _ hx))

theorem WellFormedMembers.readable : ∀ {members : List (String × Json)},
    WellFormedMembers members →
    (∀ x, .float x ∈ numbersMembers members → (Number.float x).ReadsBack) →
    ReadableMembers members
  | [], _, _ => fun _ _ _ _ hne => absurd rfl hne
  | [_], h, hfloats =>
    (WellFormed.readable h.1 fun x hx => hfloats x (List.mem_append_left _ hx)).members_single
  | _ :: _ :: _, h, hfloats =>
    (WellFormed.readable h.1 fun x hx => hfloats x (List.mem_append_left _ hx)).members_cons
      (WellFormedMembers.readable h.2 fun x hx => hfloats x (List.mem_append_right _ hx))

end

/-- A well-formed document that is not nested too deeply is read back from its text, if its
numbers with a point are. -/
theorem read?_compact {j : Json} (h : j.WellFormed) (hdepth : j.depth ≤ maxDepth)
    (hfloats : ∀ x, .float x ∈ j.numbers → (Number.float x).ReadsBack) :
    read? j.compact = some j := by
  have hreadable : Readable j := h.readable hfloats
  obtain ⟨r, hread, hr⟩ := @hreadable (2 * j.compact.toList.length + 2) maxDepth [] hdepth
    (by omega) Ends.nil
  rw [List.append_nil] at hread
  have hend : (skipSpace r).isEmpty = true := by
    rw [hr]
    rfl
  rw [read?, hread]
  simp only [Option.bind_eq_bind, Option.bind_some, hend, if_true]

end LinkedData.Json
