/-!
# Affixes

Taking a known piece off the front or the back of a text. Each function is characterised
by one equation: it succeeds with `r` exactly when the text is the piece joined with `r`.
-/

namespace LinkedData.Text

/-- What follows the piece at the front of the characters. -/
def dropFront? : List Char → List Char → Option (List Char)
  | [], cs => some cs
  | p :: ps, c :: cs => if p = c then dropFront? ps cs else none
  | _ :: _, [] => none

theorem dropFront?_append (p r : List Char) : dropFront? p (p ++ r) = some r := by
  induction p with
  | nil => rfl
  | cons c p ih => simpa [dropFront?] using ih

theorem eq_append_of_dropFront? {p s r : List Char} (h : dropFront? p s = some r) :
    s = p ++ r := by
  fun_induction dropFront? p s with
  | case1 => simpa using h
  | case2 _ _ _ ih => simpa using ih h
  | case3 => simp at h
  | case4 => simp at h

theorem dropFront?_eq_some_iff {p s r : List Char} : dropFront? p s = some r ↔ s = p ++ r :=
  ⟨eq_append_of_dropFront?, fun h => h ▸ dropFront?_append p r⟩

/-- What follows `piece` at the front of `text`. -/
def after? (piece text : String) : Option String :=
  (dropFront? piece.toList text.toList).map String.ofList

/-- What precedes `piece` at the back of `text`. -/
def before? (piece text : String) : Option String :=
  (dropFront? piece.toList.reverse text.toList.reverse).map fun r => String.ofList r.reverse

theorem after?_eq_some_iff {piece text rest : String} :
    after? piece text = some rest ↔ text = piece ++ rest := by
  simp only [after?, Option.map_eq_some_iff, dropFront?_eq_some_iff]
  constructor
  · rintro ⟨r, h, rfl⟩
    rw [← String.toList_inj, h, String.toList_append, String.toList_ofList]
  · rintro rfl
    exact ⟨rest.toList, String.toList_append, String.ofList_toList⟩

theorem before?_eq_some_iff {piece text rest : String} :
    before? piece text = some rest ↔ text = rest ++ piece := by
  simp only [before?, Option.map_eq_some_iff, dropFront?_eq_some_iff]
  constructor
  · rintro ⟨r, h, rfl⟩
    rw [← String.toList_inj, String.toList_append, String.toList_ofList,
      ← List.reverse_inj, h, List.reverse_append, List.reverse_reverse]
  · rintro rfl
    exact ⟨rest.toList.reverse, by simp [String.toList_append], by simp⟩

/-- Does the text begin with the piece? -/
def startsWith (piece text : String) : Bool :=
  (after? piece text).isSome

/-- Does the text end with the piece? -/
def endsWith (piece text : String) : Bool :=
  (before? piece text).isSome

theorem startsWith_iff {piece text : String} :
    startsWith piece text = true ↔ ∃ rest, text = piece ++ rest := by
  simp [startsWith, Option.isSome_iff_exists, after?_eq_some_iff]

theorem endsWith_iff {piece text : String} :
    endsWith piece text = true ↔ ∃ rest, text = rest ++ piece := by
  simp [endsWith, Option.isSome_iff_exists, before?_eq_some_iff]

theorem startsWith_append (piece rest : String) : startsWith piece (piece ++ rest) = true :=
  startsWith_iff.2 ⟨rest, rfl⟩

theorem after?_eq_none_of_not_startsWith {piece text : String}
    (h : startsWith piece text = false) : after? piece text = none :=
  Option.isSome_eq_false_iff.1 h |> Option.isNone_iff_eq_none.1

/-- Neither text begins with the other. -/
def Apart (a b : String) : Prop :=
  ¬ a.toList <+: b.toList ∧ ¬ b.toList <+: a.toList

instance (a b : String) : Decidable (Apart a b) :=
  inferInstanceAs (Decidable (_ ∧ _))

section

variable {a b : String}

/-- Such texts stay apart however they go on. -/
theorem Apart.append_ne_append (h : Apart a b) (x y : String) : a ++ x ≠ b ++ y := by
  intro heq
  have hlist := congrArg String.toList heq
  rw [String.toList_append, String.toList_append] at hlist
  have hb : b.toList <+: a.toList ++ x.toList := by
    rw [hlist]
    exact List.prefix_append _ _
  rcases List.prefix_or_prefix_of_prefix (List.prefix_append _ _) hb with hp | hp
  · exact h.1 hp
  · exact h.2 hp

theorem Apart.append_ne (h : Apart a b) (x : String) : a ++ x ≠ b := by
  have hne := h.append_ne_append x ""
  rwa [String.append_empty] at hne

theorem Apart.after?_eq_none (h : Apart a b) (y : String) : after? a (b ++ y) = none := by
  rcases hafter : after? a (b ++ y) with _ | rest
  · rfl
  · exact absurd (after?_eq_some_iff.1 hafter).symm (h.append_ne_append rest y)

theorem Apart.startsWith_append (h : Apart a b) (y : String) : startsWith a (b ++ y) = false := by
  rw [startsWith, h.after?_eq_none]
  rfl

end

/-- Take an opening and a closing piece off a text. -/
def between? (opening closing text : String) : Option String :=
  (after? opening text).bind (before? closing)

theorem between?_eq_some_iff {opening closing text inner : String} :
    between? opening closing text = some inner ↔ text = opening ++ inner ++ closing := by
  simp only [between?, Option.bind_eq_some_iff, after?_eq_some_iff, before?_eq_some_iff]
  constructor
  · rintro ⟨_, rfl, rfl⟩
    exact (String.append_assoc ..).symm
  · rintro rfl
    exact ⟨inner ++ closing, String.append_assoc .., rfl⟩

end LinkedData.Text
