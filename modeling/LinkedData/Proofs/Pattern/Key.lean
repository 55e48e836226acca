import LinkedData.Pattern.Key

/-!
# What keys mean

A key of a pattern is classified by a sequence of tests on its text. `PatternKey.Means` says
without them which texts mean what: it has a constructor for each class of keys, and the classes
do not overlap (`resolve_eq_ok_iff`).
-/

namespace LinkedData

namespace PatternKey

/-- The key has the meaning. -/
inductive Means : String → PatternKey → Prop where
  /-- the identifier -/
  | id : Means Vocabulary.idKey .id
  /-- an optional branch -/
  | optional : Means optionalKey .optional
  /-- an edge that is followed backwards; its name is not empty -/
  | inverse {name : String} (hname : name ≠ "") : Means (inverseMark ++ name) (.inverse name)
  /-- an operator of a filter -/
  | operator {key : String} {op : FilterOp} (hop : FilterOp.ofKey? key = some op) :
      Means key (.operator op)
  /-- any property at all -/
  | anonymous : Means "?" (.wildcard none)
  /-- a variable in the place of a property -/
  | named {name : String} (hname : name ≠ "") : Means ("?" ++ name) (.wildcard (some name))
  /-- a property: a term that has none of the marks -/
  | property {key predicate : String} (hdollar : Text.startsWith "$" key = false)
      (hquestion : Text.startsWith "?" key = false)
      (hterm : Literal.encodeTerm key = .ok predicate) : Means key (.property predicate)

/-! ## One class after the other -/

theorem resolve_inverse {name : String} (hname : name ≠ "") :
    resolve (inverseMark ++ name) = .ok (.inverse name) := by
  have hid : inverseMark ++ name ≠ Vocabulary.idKey :=
    (by decide +kernel : Text.Apart inverseMark Vocabulary.idKey).append_ne name
  have hoptional : inverseMark ++ name ≠ optionalKey :=
    (by decide +kernel : Text.Apart inverseMark optionalKey).append_ne name
  have hafter : Text.after? inverseMark (inverseMark ++ name) = some name :=
    Text.after?_eq_some_iff.2 rfl
  have hempty : name.isEmpty = false := by
    simpa using hname
  rw [resolve, if_neg hid, if_neg hoptional, hafter]
  simp only [hempty, Bool.false_eq_true, if_false]

/-- The operators are few, and each of their keys is classified by computation. -/
theorem resolve_operator {key : String} {op : FilterOp} (hop : FilterOp.ofKey? key = some op) :
    resolve key = .ok (.operator op) := by
  unfold FilterOp.ofKey? at hop
  split at hop
  case h_14 => cases hop
  all_goals
    obtain rfl := Option.some.inj hop
    rfl

/-- A key that begins with a question mark begins with none of the marks that are looked for
earlier. -/
theorem resolve_question (name : String) :
    resolve ("?" ++ name) = .ok (.wildcard (if name.isEmpty then none else some name)) := by
  have hid : "?" ++ name ≠ Vocabulary.idKey :=
    (by decide +kernel : Text.Apart "?" Vocabulary.idKey).append_ne name
  have hoptional : "?" ++ name ≠ optionalKey :=
    (by decide +kernel : Text.Apart "?" optionalKey).append_ne name
  have hinverse : Text.after? inverseMark ("?" ++ name) = none :=
    (by decide +kernel : Text.Apart inverseMark "?").after?_eq_none name
  have hdollar : Text.startsWith "$" ("?" ++ name) = false :=
    (by decide +kernel : Text.Apart "$" "?").startsWith_append name
  have hafter : Text.after? "?" ("?" ++ name) = some name := Text.after?_eq_some_iff.2 rfl
  rw [resolve, if_neg hid, if_neg hoptional, hinverse]
  simp only [hdollar, Bool.false_eq_true, if_false, hafter]

theorem resolve_property {key predicate : String} (hdollar : Text.startsWith "$" key = false)
    (hquestion : Text.startsWith "?" key = false)
    (hterm : Literal.encodeTerm key = .ok predicate) :
    resolve key = .ok (.property predicate) := by
  have hid : key ≠ Vocabulary.idKey := by
    rintro rfl
    cases hterm
  have hoptional : key ≠ optionalKey := by
    rintro rfl
    cases hdollar
  have hinverse : Text.after? inverseMark key = none := by
    rcases hafter : Text.after? inverseMark key with _ | name
    · rfl
    · have hkey : key = "$" ++ ("inv_" ++ name) := by
        rw [Text.after?_eq_some_iff.1 hafter, ← String.append_assoc]
        rfl
      rw [hkey, Text.startsWith_append] at hdollar
      cases hdollar
  rw [resolve, if_neg hid, if_neg hoptional, hinverse]
  simp only [hdollar, Bool.false_eq_true, if_false, Text.after?_eq_none_of_not_startsWith hquestion,
    hterm]
  rfl

/-! ## All classes -/

theorem resolve_of_means {key : String} {kind : PatternKey} (h : Means key kind) :
    resolve key = .ok kind := by
  cases h with
  | id => rfl
  | optional => rfl
  | inverse hname => exact resolve_inverse hname
  | operator hop => exact resolve_operator hop
  | anonymous => exact resolve_question ""
  | @named name hname =>
    have hempty : name.isEmpty = false := by
      simpa using hname
    rw [resolve_question, hempty]
    rfl
  | property hdollar hquestion hterm => exact resolve_property hdollar hquestion hterm

theorem means_of_resolve {key : String} {kind : PatternKey} (h : resolve key = .ok kind) :
    Means key kind := by
  unfold resolve at h
  split at h
  · rename_i hid
    obtain rfl := Except.ok.inj h
    exact hid ▸ .id
  · split at h
    · rename_i hoptional
      obtain rfl := Except.ok.inj h
      exact hoptional ▸ .optional
    · split at h
      · rename_i name hafter
        split at h
        · cases h
        · rename_i hempty
          obtain rfl := Except.ok.inj h
          rw [Text.after?_eq_some_iff.1 hafter]
          exact .inverse (by simpa using hempty)
      · split at h
        · split at h
          · rename_i op hop
            obtain rfl := Except.ok.inj h
            exact .operator hop
          · cases h
        · rename_i hdollar
          split at h
          · rename_i name hafter
            obtain rfl := Text.after?_eq_some_iff.1 hafter
            obtain rfl := Except.ok.inj h
            split
            · rename_i hempty
              obtain rfl : name = "" := by simpa using hempty
              exact .anonymous
            · rename_i hempty
              exact .named (by simpa using hempty)
          · rename_i hafter
            rcases hterm : Literal.encodeTerm key with e | predicate
            · rw [hterm] at h
              cases h
            · rw [hterm] at h
              obtain rfl := Except.ok.inj h
              have hquestion : Text.startsWith "?" key = false := by
                rw [Text.startsWith, hafter]
                rfl
              exact .property (Bool.eq_false_iff.2 hdollar) hquestion hterm

/-- A key is classified by what it means. -/
theorem resolve_eq_ok_iff {key : String} {kind : PatternKey} :
    resolve key = .ok kind ↔ Means key kind :=
  ⟨means_of_resolve, resolve_of_means⟩

end PatternKey

end LinkedData
