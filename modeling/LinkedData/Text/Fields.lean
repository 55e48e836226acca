/-!
# Fields in order

A record of named fields keeps its fields in the order in which their names first came. It
is a list of pairs; setting a field that is already there replaces its value in place.
-/

namespace LinkedData

/-- Named fields in the order of their first mention. -/
abbrev Fields (α : Type) := List (String × α)

namespace Fields

variable {α : Type}

/-- The value of a field. -/
def get? (name : String) : Fields α → Option α
  | [] => none
  | (key, value) :: rest => if key = name then some value else get? name rest

/-- Set a field: in place if it is there, at the end if it is new. -/
def set (name : String) (value : α) : Fields α → Fields α
  | [] => [(name, value)]
  | (key, old) :: rest =>
    if key = name then (key, value) :: rest else (key, old) :: set name value rest

/-- Set the fields one after the other. -/
def ofList (pairs : List (String × α)) : Fields α :=
  pairs.foldl (fun fields pair => fields.set pair.1 pair.2) []

/-- The names, in order. -/
def names (fields : Fields α) : List String :=
  fields.map Prod.fst

/-- No two fields share a name. -/
def Distinct (fields : Fields α) : Prop :=
  fields.names.Nodup

instance (fields : Fields α) : Decidable fields.Distinct :=
  inferInstanceAs (Decidable (List.Nodup _))

theorem mem_names_set {fields : Fields α} {name key : String} {value : α} :
    key ∈ (fields.set name value).names ↔ key = name ∨ key ∈ fields.names := by
  induction fields with
  | nil => simp [set, names]
  | cons pair rest ih =>
    obtain ⟨k, v⟩ := pair
    simp only [names] at ih ⊢
    by_cases h : k = name
    · subst h; simp [set]
    · simp only [set, if_neg h, List.map_cons, List.mem_cons, ih]
      constructor
      · rintro (h | h | h) <;> simp [h]
      · rintro (h | h | h) <;> simp [h]

theorem Distinct.set {fields : Fields α} (h : fields.Distinct) (name : String) (value : α) :
    (fields.set name value).Distinct := by
  induction fields with
  | nil => simp [Fields.set, Distinct, names]
  | cons pair rest ih =>
    obtain ⟨k, v⟩ := pair
    simp only [Distinct, names, List.map_cons, List.nodup_cons] at h
    by_cases hk : k = name
    · simp only [Fields.set, if_pos hk, Distinct, names, List.map_cons, List.nodup_cons]
      exact h
    · simp only [Fields.set, if_neg hk, Distinct, names, List.map_cons, List.nodup_cons]
      refine ⟨fun hm => ?_, ih h.2⟩
      rcases mem_names_set.1 hm with rfl | hm
      · exact hk rfl
      · exact h.1 hm

theorem get?_set {fields : Fields α} {name key : String} {value : α} :
    (fields.set name value).get? key = if name = key then some value else fields.get? key := by
  induction fields with
  | nil => simp [set, get?]
  | cons pair rest ih =>
    obtain ⟨k, v⟩ := pair
    by_cases hk : k = name
    · subst hk; by_cases h : k = key <;> simp [set, get?, h]
    · by_cases h : k = key
      · subst h; simp [set, get?, hk, Ne.symm hk]
      · simp [set, get?, hk, h, ih]

theorem get?_eq_none_iff {fields : Fields α} {name : String} :
    fields.get? name = none ↔ name ∉ fields.names := by
  induction fields with
  | nil => simp [get?, names]
  | cons pair rest ih =>
    obtain ⟨k, v⟩ := pair
    simp only [names] at ih ⊢
    by_cases h : k = name
    · simp [get?, h]
    · simp [get?, h, Ne.symm h, ih]

theorem mem_of_get? {fields : Fields α} {name : String} {value : α}
    (h : fields.get? name = some value) : (name, value) ∈ fields := by
  induction fields with
  | nil => cases h
  | cons pair rest ih =>
    obtain ⟨k, v⟩ := pair
    by_cases hk : k = name
    · subst hk
      rw [get?, if_pos rfl] at h
      obtain rfl := Option.some.inj h
      exact List.mem_cons_self
    · rw [get?, if_neg hk] at h
      exact List.mem_cons_of_mem _ (ih h)

theorem Distinct.get?_of_mem {fields : Fields α} (h : fields.Distinct) {name : String} {value : α}
    (hm : (name, value) ∈ fields) : fields.get? name = some value := by
  induction fields with
  | nil => cases hm
  | cons pair rest ih =>
    obtain ⟨k, v⟩ := pair
    simp only [Distinct, names, List.map_cons, List.nodup_cons] at h
    rcases List.mem_cons.1 hm with heq | hm
    · cases heq
      rw [get?, if_pos rfl]
    · have hk : k ≠ name := by
        rintro rfl
        exact h.1 (List.mem_map_of_mem hm)
      rw [get?, if_neg hk]
      exact ih h.2 hm

theorem set_of_not_mem {fields : Fields α} {name : String} (h : name ∉ fields.names) (value : α) :
    fields.set name value = fields ++ [(name, value)] := by
  induction fields with
  | nil => rfl
  | cons pair rest ih =>
    obtain ⟨k, v⟩ := pair
    simp only [names, List.map_cons, List.mem_cons, not_or] at h
    rw [set, if_neg (Ne.symm h.1), ih h.2, List.cons_append]

/-- Setting new fields one after the other puts them behind the others. -/
theorem foldl_set {fields pairs : Fields α} (h : (fields.names ++ pairs.names).Nodup) :
    pairs.foldl (fun fields pair => fields.set pair.1 pair.2) fields = fields ++ pairs := by
  induction pairs generalizing fields with
  | nil => exact (List.append_nil fields).symm
  | cons pair rest ih =>
    obtain ⟨name, value⟩ := pair
    have hnew : name ∉ fields.names := by
      intro hm
      exact (List.nodup_append.1 h).2.2 name hm name List.mem_cons_self rfl
    have hnames : (fields ++ [(name, value)]).names ++ names rest =
        fields.names ++ names ((name, value) :: rest) := by
      simp [names]
    rw [List.foldl_cons, set_of_not_mem hnew, ih (hnames ▸ h), List.append_assoc,
      List.singleton_append]

theorem ofList_eq_self {pairs : Fields α} (h : pairs.Distinct) : ofList pairs = pairs :=
  (foldl_set h : pairs.foldl _ [] = [] ++ pairs)

/-- A field is set or was there before. -/
theorem mem_of_mem_set {fields : Fields α} {name : String} {value : α} {pair : String × α}
    (h : pair ∈ fields.set name value) : pair = (name, value) ∨ pair ∈ fields := by
  induction fields with
  | nil => exact .inl (List.mem_singleton.1 h)
  | cons first rest ih =>
    rw [set] at h
    split at h
    · rename_i hkey
      rcases List.mem_cons.1 h with h | h
      · exact .inl (hkey ▸ h)
      · exact .inr (List.mem_cons_of_mem _ h)
    · rcases List.mem_cons.1 h with h | h
      · exact .inr (h ▸ List.mem_cons_self)
      · exact (ih h).imp_right (List.mem_cons_of_mem _)

theorem mem_of_mem_foldl_set {fields pairs : Fields α} {pair : String × α}
    (h : pair ∈ pairs.foldl (fun fields pair => fields.set pair.1 pair.2) fields) :
    pair ∈ fields ∨ pair ∈ pairs := by
  induction pairs generalizing fields with
  | nil => exact .inl h
  | cons first rest ih =>
    rcases ih h with h | h
    · rcases mem_of_mem_set h with rfl | h
      · exact .inr List.mem_cons_self
      · exact .inl h
    · exact .inr (List.mem_cons_of_mem _ h)

theorem Distinct.foldl_set {fields : Fields α} (h : fields.Distinct) (pairs : Fields α) :
    Distinct (pairs.foldl (fun fields pair => fields.set pair.1 pair.2) fields) := by
  induction pairs generalizing fields with
  | nil => exact h
  | cons first rest ih => exact ih (h.set first.1 first.2)

theorem mem_of_mem_ofList {pairs : Fields α} {pair : String × α} (h : pair ∈ ofList pairs) :
    pair ∈ pairs :=
  (mem_of_mem_foldl_set h).resolve_left List.not_mem_nil

theorem get?_foldl_set_of_not_mem {fields pairs : Fields α} {name : String}
    (h : name ∉ pairs.names) :
    get? name (pairs.foldl (fun fields pair => fields.set pair.1 pair.2) fields) =
      fields.get? name := by
  induction pairs generalizing fields with
  | nil => rfl
  | cons first rest ih =>
    simp only [names, List.map_cons, List.mem_cons, not_or] at h
    rw [List.foldl_cons, ih h.2, get?_set, if_neg (Ne.symm h.1)]

theorem distinct_ofList (pairs : List (String × α)) : (ofList pairs).Distinct := by
  have hempty : Distinct ([] : Fields α) := List.nodup_nil
  exact hempty.foldl_set pairs

variable {β : Type}

@[simp]
theorem names_map (f : α → β) (fields : Fields α) :
    names (fields.map fun pair => (pair.1, f pair.2)) = fields.names := by
  rw [names, names, List.map_map]
  rfl

theorem map_set (f : α → β) (fields : Fields α) (name : String) (value : α) :
    (fields.set name value).map (fun pair => (pair.1, f pair.2)) =
      set name (f value) (fields.map fun pair => (pair.1, f pair.2)) := by
  induction fields with
  | nil => rfl
  | cons pair rest ih =>
    obtain ⟨k, v⟩ := pair
    by_cases hk : k = name
    · rw [set, if_pos hk, List.map_cons, List.map_cons, set, if_pos hk]
    · rw [set, if_neg hk, List.map_cons, List.map_cons, set, if_neg hk, ih]

/-- Values can be changed before the fields are set or after. -/
theorem map_ofList (f : α → β) (pairs : List (String × α)) :
    (ofList pairs).map (fun pair => (pair.1, f pair.2)) =
      ofList (pairs.map fun pair => (pair.1, f pair.2)) := by
  have hfold : ∀ fields : Fields α,
      (pairs.foldl (fun fields pair => fields.set pair.1 pair.2) fields).map
          (fun pair => (pair.1, f pair.2)) =
        (pairs.map fun pair => (pair.1, f pair.2)).foldl
          (fun fields pair => set pair.1 pair.2 fields)
          (fields.map fun pair => (pair.1, f pair.2)) := by
    induction pairs with
    | nil => exact fun _ => rfl
    | cons pair rest ih =>
      intro fields
      rw [List.foldl_cons, ih, map_set, List.map_cons, List.foldl_cons]
  exact hfold []

end Fields

end LinkedData
