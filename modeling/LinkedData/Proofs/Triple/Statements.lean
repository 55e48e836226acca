import LinkedData.Proofs.Literal.Separator
import LinkedData.Proofs.Triple.Source
import LinkedData.Triple.Document

/-!
# Statement documents read back

A document is its tokens joined by separators: a space within a statement, and a point and a line
break between statements. Keys, names and foreign locators are written as they are, so one that
holds a separator with another token behind it can pass for several tokens. If none does
(`Triple.Clear`), the document determines its statements (`Triple.eq_of_document_eq`), whatever
the texts in it hold.
-/

namespace LinkedData

open Literal

namespace Triple

/-! ## What follows a statement -/

/-- What follows the object of a statement: the point, and the statements after it. -/
def following : List Triple → List Char
  | [] => [' ', '.']
  | t :: rest => ' ' :: '.' :: '\n' :: ' ' :: (t.text.toList ++ following rest)

theorem exists_following (ts : List Triple) : ∃ rest, following ts = ' ' :: '.' :: rest := by
  cases ts with
  | nil => exact ⟨_, rfl⟩
  | cons t ts => exact ⟨_, rfl⟩

/-- Behind an object a point and a line break come before the next token. -/
theorem gap_following {ts : List Triple} (hts : ∀ t ∈ ts, Begins t.text.toList) (us : List Triple) :
    Gap " .\n " (following ts) (following us) := by
  intro z hz h
  obtain ⟨rest, hrest⟩ := exists_following us
  rw [hrest] at h
  rcases ts with _ | ⟨t, ts⟩
  · have hlength := congrArg List.length h
    have hpositive := List.length_pos_iff.2 hz
    simp [following] at hlength
    omega
  · have hbegins := (hts t List.mem_cons_self).append (following ts)
    rw [following] at h
    generalize t.text.toList ++ following ts = next at h hbegins
    -- what is shorter than the separator would have to go on like it, or with a point
    rcases z with _ | ⟨c₁, _ | ⟨c₂, _ | ⟨c₃, _ | ⟨c₄, z⟩⟩⟩⟩
    · exact absurd rfl hz
    · simp at h
    · simp at h
    · simp only [List.cons_append, List.nil_append, List.cons.injEq] at h
      rw [h.2.2.2.2] at hbegins
      exact absurd hbegins (not_begins_point rest)
    · simp only [List.cons_append, List.cons.injEq] at h
      obtain ⟨rfl, rfl, rfl, rfl, rfl⟩ := h
      obtain ⟨start, hstart, hopens⟩ := hbegins.of_append_space
      refine ⟨start, hstart, ?_⟩
      rw [String.toList_append]
      exact (List.prefix_append_right_inj _).2 hopens

/-! ## Statements -/

/-- No token can be taken for several. -/
structure Clear (t : Triple) : Prop where
  /-- in the subject no token follows a space -/
  subject : Whole " " t.subject
  /-- in the predicate no token follows a space -/
  predicate : Whole " " t.predicate
  /-- in the object no token follows a point at the end of a line -/
  object : Whole " .\n " t.object

instance (t : Triple) : Decidable t.Clear :=
  decidable_of_iff (Whole " " t.subject ∧ Whole " " t.predicate ∧ Whole " .\n " t.object)
    ⟨fun h => ⟨h.1, h.2.1, h.2.2⟩, fun h => ⟨h.subject, h.predicate, h.object⟩⟩

/-- The triple can be read off a document. -/
structure Legible (t : Triple) : Prop where
  /-- its tokens are such as encoding writes -/
  wire : t.All Wire
  /-- none of them can be taken for several -/
  clear : t.Clear

theorem toList_text_append (t : Triple) (rest : List Char) : t.text.toList ++ rest =
    t.subject.toList ++ ' ' :: (t.predicate.toList ++ ' ' :: (t.object.toList ++ rest)) := by
  simp [text]

theorem Legible.begins {t : Triple} (h : t.Legible) : Begins t.text.toList := by
  have hlist := toList_text_append t []
  rw [List.append_nil] at hlist
  rw [hlist]
  exact h.wire.subject.begins.append _

/-- The tokens of the first statement end where they end, one after the other. -/
theorem eq_of_following {t u : Triple} {ts us : List Triple} (ht : t.Legible)
    (hts : ∀ t ∈ ts, t.Legible) (hu : u.Legible) (hus : ∀ u ∈ us, u.Legible)
    (h : t.text.toList ++ following ts = u.text.toList ++ following us) :
    t = u ∧ following ts = following us := by
  rw [toList_text_append, toList_text_append] at h
  -- token by token: what follows a token begins with a separator, so the token ends there
  have hsubject : t.subject = u.subject :=
    ht.wire.subject.eq_of_append hu.wire.subject ht.clear.subject hu.clear.subject
      (gap_space (ht.wire.predicate.begins.append _) _)
      (gap_space (hu.wire.predicate.begins.append _) _) h
  rw [hsubject] at h
  have h := (List.cons.inj (List.append_cancel_left h)).2
  have hpredicate : t.predicate = u.predicate :=
    ht.wire.predicate.eq_of_append hu.wire.predicate ht.clear.predicate hu.clear.predicate
      (gap_space (ht.wire.object.begins.append _) _)
      (gap_space (hu.wire.object.begins.append _) _) h
  rw [hpredicate] at h
  have h := (List.cons.inj (List.append_cancel_left h)).2
  obtain ⟨rest, hrest⟩ := exists_following ts
  obtain ⟨rest', hrest'⟩ := exists_following us
  have hobject : t.object = u.object := by
    have huw := gap_following (fun t ht => (hts t ht).begins) us
    have hwu := gap_following (fun u hu => (hus u hu).begins) ts
    rw [hrest, hrest'] at h huw hwu
    exact ht.wire.object.eq_of_append hu.wire.object ht.clear.object hu.clear.object huw hwu h
  rw [hobject] at h
  refine ⟨?_, List.append_cancel_left h⟩
  cases t
  cases u
  simp_all

theorem eq_of_following_eq : ∀ {ts us : List Triple}, (∀ t ∈ ts, t.Legible) →
    (∀ u ∈ us, u.Legible) → following ts = following us → ts = us
  | [], [], _, _, _ => rfl
  | [], u :: us, _, _, h => by
    have hlength := congrArg List.length h
    simp [following] at hlength
  | t :: ts, [], _, _, h => by
    have hlength := congrArg List.length h
    simp [following] at hlength
  | t :: ts, u :: us, hts, hus, h => by
    rw [List.forall_mem_cons] at hts hus
    simp only [following, List.cons.injEq, true_and] at h
    obtain ⟨rfl, hrest⟩ := eq_of_following hts.1 hts.2 hus.1 hus.2 h
    rw [eq_of_following_eq hts.2 hus.2 hrest]

/-! ## Documents -/

theorem toList_document_cons (schema : Bool) (t : Triple) (rest : List Triple) :
    (document schema (t :: rest)).toList =
      (declarations schema).toList ++ (t.text.toList ++ following rest) := by
  have hlines : (" .\n ".intercalate ((t :: rest).map text)).toList ++ [' ', '.'] =
      t.text.toList ++ following rest := by
    induction rest generalizing t with
    | nil => simp [following]
    | cons next rest ih =>
      rw [following, ← ih next, List.map_cons, List.map_cons, String.intercalate_cons_cons]
      simp
  rw [← hlines, document, List.isEmpty_cons, if_neg Bool.false_ne_true]
  simp

/-- A document with a statement is longer than one without. -/
theorem document_cons_ne_nil (schema : Bool) (t : Triple) (rest : List Triple) :
    document schema (t :: rest) ≠ document schema [] := by
  intro h
  have hnil : document schema [] = declarations schema := rfl
  have hlength := congrArg (fun text => text.toList.length) h
  simp [toList_document_cons, hnil, toList_text_append] at hlength

/-- A document of legible statements determines them. -/
theorem eq_of_document_eq {schema : Bool} {ts us : List Triple} (hts : ∀ t ∈ ts, t.Legible)
    (hus : ∀ u ∈ us, u.Legible) (h : document schema ts = document schema us) : ts = us := by
  rcases ts with _ | ⟨t, ts⟩ <;> rcases us with _ | ⟨u, us⟩
  · rfl
  · exact absurd h.symm (document_cons_ne_nil schema u us)
  · exact absurd h (document_cons_ne_nil schema t ts)
  · have hlist := congrArg String.toList h
    rw [toList_document_cons, toList_document_cons] at hlist
    rw [List.forall_mem_cons] at hts hus
    obtain ⟨rfl, hrest⟩ :=
      eq_of_following hts.1 hts.2 hus.1 hus.2 (List.append_cancel_left hlist)
    rw [eq_of_following_eq hts.2 hus.2 hrest]

end Triple

/-! ## Values -/

/-- The texts in the value that are written as they are: keys, names and foreign locators. -/
def Value.verbatim (v : Value) : List String :=
  v.keys ++ v.leaves.filterMap Value.verbatim?

/-- A token of the value is sealed if no text that is written as it is holds a space. -/
theorem Sourced.isSealed {v : Value} {token : String}
    (h : Sourced .empty v.keys v.leaves token) (hv : ∀ text ∈ v.verbatim, ' ' ∉ text.toList) :
    Sealed token := by
  cases h with
  | key hkey hok =>
    exact sealed_of_encodeTerm (hv _ (List.mem_append_left _ hkey)) (encodeKey_eq_ok hok).2.2
  | leaf hleaf hok =>
    refine Codec.sealed_of_encodeLiteral (fun text htext => hv text ?_) hok
    exact List.mem_append_right _ (List.mem_filterMap.2 ⟨_, hleaf, htext⟩)
  | identifier r => exact sealed_locator r

theorem Sourced.wire {keys : List String} {leaves : List Value} {token : String}
    (h : Sourced .empty keys leaves token) : Wire token := by
  cases h with
  | key _ hok => exact wire_of_encodeTerm (encodeKey_eq_ok hok).2.2
  | leaf _ hok => exact Codec.wire_of_encodeLiteral hok
  | identifier r => exact .locator _

namespace Encoded

/-- **Clear statements can be read off the document.** Two values whose triples are clear have the
same triples if they have the same document, whatever their texts hold. The triples of a value are
clear if no key, no name and no foreign locator in it holds a space. -/
theorem statements_of_document {a b : Value} {α β : IdAllocator} {ea eb : Encoded}
    (ha : (ofValue .empty a α).1 = .ok ea) (hb : (ofValue .empty b β).1 = .ok eb) :
    ((∀ t ∈ ea.triples, t.Clear) → (∀ t ∈ eb.triples, t.Clear) → ∀ schema,
        Triple.document schema ea.triples = Triple.document schema eb.triples →
          ea.triples = eb.triples) ∧
      ((∀ text ∈ a.verbatim, ' ' ∉ text.toList) → ∀ t ∈ ea.triples, t.Clear) := by
  have hwire : ∀ {v : Value} {γ : IdAllocator} {e : Encoded}, (ofValue .empty v γ).1 = .ok e →
      ∀ t ∈ e.triples, t.All Wire := fun h t ht =>
    (tokens_sourced h t ht).imp fun _ htoken => htoken.wire
  refine ⟨fun hclear hclear' schema hdocument => ?_, fun hspaceless t ht => ?_⟩
  · exact Triple.eq_of_document_eq (fun t ht => ⟨hwire ha t ht, hclear t ht⟩)
      (fun t ht => ⟨hwire hb t ht, hclear' t ht⟩) hdocument
  · have hsealed := (tokens_sourced ha t ht).imp fun _ htoken => htoken.isSealed hspaceless
    exact ⟨hsealed.subject.whole (by decide), hsealed.predicate.whole (by decide),
      hsealed.object.whole (by decide)⟩

/-- A note that tries to end its statement and to add another one, beside a term. -/
def remark (rank : String) : Value :=
  .node [("@id", .reference ⟨"ada", by decide⟩),
    ("note", .string "1\" .\n <http://grel.org/ids/id/eve> :knows :ada"), ("rank", .term rank)]

/-- The same in a list, with the identifier last and lists of one element. -/
def remarks (rank : String) : Value :=
  .list [.node [("note", .list [.string "1\" .\n <http://grel.org/ids/id/eve> :knows :ada"]),
    ("rank", .list [.term rank]), ("@id", .string "@id(ada)")]]

/-- The space in the one term is harmless, and the other term has none. -/
theorem statements_of_document_remark :
    ∃ ea eb ec, (ofValue .empty (remark "first class") (.countingFrom 1)).1 = .ok ea ∧
      (ofValue .empty (remarks "first class") (.countingFrom 2)).1 = .ok eb ∧
      (ofValue .empty (remark "first") (.countingFrom 3)).1 = .ok ec ∧
      Triple.document true ea.triples = Triple.document true eb.triples ∧
      ea.triples = eb.triples ∧ (∀ text ∈ (remark "first").verbatim, ' ' ∉ text.toList) ∧
      ∀ t ∈ ec.triples, t.Clear := by
  obtain ⟨ea, eb, ec, ha, hb, hc, hclear, hclear', hdocument⟩ : ∃ ea eb ec,
      (ofValue .empty (remark "first class") (.countingFrom 1)).1 = .ok ea ∧
      (ofValue .empty (remarks "first class") (.countingFrom 2)).1 = .ok eb ∧
      (ofValue .empty (remark "first") (.countingFrom 3)).1 = .ok ec ∧
      (∀ t ∈ ea.triples, t.Clear) ∧ (∀ t ∈ eb.triples, t.Clear) ∧
      Triple.document true ea.triples = Triple.document true eb.triples :=
    ⟨_, _, _, rfl, rfl, rfl, by decide +kernel, by decide +kernel, rfl⟩
  have hspaceless : ∀ text ∈ (remark "first").verbatim, ' ' ∉ text.toList := by
    decide +kernel
  exact ⟨ea, eb, ec, ha, hb, hc, hdocument,
    (statements_of_document ha hb).1 hclear hclear' true hdocument, hspaceless,
    (statements_of_document hc hb).2 hspaceless⟩

/-- **A term can pass for several tokens.** A term that holds the end of its statement and the
beginning of another one gives the document of two statements. -/
theorem two_statements_in_one :
    ∃ ea eb, (ofValue .empty (.node [("@id", .reference ⟨"x", by decide⟩),
        ("p", .list [.term "q", .term "r"])]) (.countingFrom 1)).1 = .ok ea ∧
      (ofValue .empty (.node [("@id", .reference ⟨"x", by decide⟩),
        ("p", .term "q .\n <http://grel.org/ids/id/x> :p :r")]) (.countingFrom 1)).1 = .ok eb ∧
      Triple.document false ea.triples = Triple.document false eb.triples ∧
      ea.triples ≠ eb.triples ∧ ea.triples.length = 2 ∧ eb.triples.length = 1 :=
  ⟨_, _, rfl, rfl, by decide +kernel, by decide +kernel, rfl, rfl⟩

end Encoded

end LinkedData
