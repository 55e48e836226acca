import LinkedData.Proofs.Session.Databases

/-!
# The databases that a session knows

A session knows the databases that the store has listed for it, and those that it has made since.
It selects no others, and it asks the store to make none of them again (`OnlyNew`). Whatever fails
in between, and however often it is tried again, no database is made twice
(`databases_accounted`).
-/

namespace LinkedData

open Store

namespace Session

/-- The store is asked to make only databases that are not known, and were not made by an earlier
call. -/
def OnlyNew (known : List String) : Transcript → Prop
  | [] => True
  | c :: t =>
    (∀ name options, c.call = .createDatabase name options → name ∉ known) ∧
      OnlyNew (known ++ created [c]) t

/-- The selected database is a known one. -/
def KnowsSelected (s : Session) : Prop :=
  ∀ name, s.database = some name → name ∈ s.databases

variable {s s' : Session} {op : Operation} {t : Transcript} {r : Except Error Unit}
  {known : List String} {name : String}

theorem created_cons (c : AnsweredCall) (t : Transcript) :
    created (c :: t) = created [c] ++ created t :=
  created_append [c] t

theorem onlyNew_append {first second : Transcript} :
    OnlyNew known (first ++ second) ↔
      OnlyNew known first ∧ OnlyNew (known ++ created first) second := by
  induction first generalizing known with
  | nil => simp [OnlyNew, created]
  | cons c first ih =>
    rw [List.cons_append, OnlyNew, OnlyNew, ih, created_cons c first, List.append_assoc, and_assoc]

theorem onlyNew_of_no_creation
    (h : ∀ c ∈ t, ∀ name options, c.call ≠ .createDatabase name options) : OnlyNew known t := by
  induction t generalizing known with
  | nil => trivial
  | cons c t ih =>
    obtain ⟨hc, ht⟩ := List.forall_mem_cons.mp h
    exact ⟨fun name options hcall => absurd hcall (hc name options), ih ht⟩

/-- What is known is not to be made, whatever the store answers. -/
theorem OnlyNew.not_mem_known (h : OnlyNew known t) {options : List DatabaseOption}
    {answer : (Call.createDatabase name options).Answer}
    (hcall : ⟨.createDatabase name options, answer⟩ ∈ t) : name ∉ known := by
  induction t generalizing known with
  | nil => cases hcall
  | cons c t ih =>
    obtain rfl | hlater := List.mem_cons.mp hcall
    · exact h.1 name options rfl
    · exact fun hknown => ih h.2 hlater (List.mem_append_left _ hknown)

theorem call_of_created? {c : AnsweredCall} (h : c.created? = some name) :
    ∃ options, c = ⟨.createDatabase name options, .ok ()⟩ := by
  obtain ⟨call, answer⟩ := c
  cases call with
  | createDatabase made options =>
    cases answer with
    | ok _ => cases h; exact ⟨options, rfl⟩
    | error _ => cases h
  | _ => cases h

/-- What one call makes is known to all calls after it. -/
theorem OnlyNew.nodup_created (h : OnlyNew known t) : (created t).Nodup := by
  induction t generalizing known with
  | nil => exact List.nodup_nil
  | cons c t ih =>
    cases hc : c.created? with
    | none =>
      rw [created, List.filterMap_cons_none hc]
      exact ih h.2
    | some made =>
      have hone : created [c] = [made] := List.filterMap_cons_some hc
      rw [created_cons, hone, List.singleton_append, List.nodup_cons]
      refine ⟨fun hagain => ?_, ih h.2⟩
      obtain ⟨d, hd, hmade⟩ := List.mem_filterMap.mp hagain
      obtain ⟨options, rfl⟩ := call_of_created? hmade
      have hnew := h.2.not_mem_known hd
      rw [hone] at hnew
      exact hnew (List.mem_append_right _ (List.mem_singleton_self made))

/-! ## Steps -/

theorem onlyNew_of_not_manages (h : ∀ c ∈ t, c.call.manages = false) : OnlyNew known t := by
  refine onlyNew_of_no_creation fun c hc name options hcall => ?_
  have hmanages := h c hc
  rw [hcall] at hmanages
  cases hmanages

theorem SettingsChange.onlyNew {database : String} {options : List DatabaseOption}
    (h : SettingsChange database options t r) : OnlyNew known t :=
  onlyNew_of_no_creation (by cases h <;> simp)

theorem Selects.onlyNew {database : String} (h : Selects database s t r s') :
    OnlyNew s.databases t := by
  have hcreation (hnew : database ∉ s.databases) : ∀ name options,
      creation database = .createDatabase name options → name ∉ s.databases := by
    rintro name options ⟨⟩
    exact hnew
  cases h with
  | known => trivial
  | refused hnew | made hnew => exact ⟨hcreation hnew, trivial⟩
  | validated hnew _ hchange | unvalidated hnew _ hchange =>
    exact ⟨hcreation hnew, hchange.onlyNew⟩

theorem Selects.knowsSelected {database : String} (h : Selects database s t r s')
    (hs : s.KnowsSelected) : s'.KnowsSelected := by
  cases h with
  | known hknown =>
    rintro _ ⟨⟩
    exact hknown
  | refused => exact hs
  | made | validated =>
    rintro _ ⟨⟩
    exact List.mem_append_right _ (List.mem_singleton_self database)
  | unvalidated => exact fun name hname => List.mem_append_left _ (hs name hname)

theorem Step.onlyNew (h : Step s op t r s') : OnlyNew s.databases t := by
  obtain ⟨database, -, h⟩ | ⟨-, ⟨database, option, -, h⟩ | h⟩ := h.manages_cases
  · exact h.onlyNew
  · exact SettingsChange.onlyNew h
  · exact onlyNew_of_not_manages h

theorem Step.knowsSelected (h : Step s op t r s') (hs : s.KnowsSelected) :
    s'.KnowsSelected := by
  cases h with
  | selects h => exact h.knowsSelected hs
  | _ => exact hs

/-! ## Runs -/

theorem Runs.databases_eq {turns : List Turn} (h : Runs s turns s') :
    s'.databases = s.databases ++ created (conversation turns) := by
  induction h with
  | nil => exact (List.append_nil _).symm
  | cons h rest ih =>
    rw [ih, (step_of_converses h).databases_eq, conversation_cons, created_append,
      List.append_assoc]

theorem Runs.onlyNew {turns : List Turn} (h : Runs s turns s') :
    OnlyNew s.databases (conversation turns) := by
  induction h with
  | nil => trivial
  | cons h rest ih =>
    have hstep := step_of_converses h
    rw [conversation_cons, onlyNew_append, ← hstep.databases_eq]
    exact ⟨hstep.onlyNew, ih⟩

theorem Runs.knowsSelected {turns : List Turn} (h : Runs s turns s') (hs : s.KnowsSelected) :
    s'.KnowsSelected := by
  induction h with
  | nil => exact hs
  | cons h rest ih => exact ih ((step_of_converses h).knowsSelected hs)

/-! ## Openings -/

/-- A session begins with what the store has listed, and with the database that it selects. -/
theorem Opens.onlyNew {config : Config} {codec : Codec} {libraries : Libraries}
    {opening : Transcript} (h : Opens config codec libraries opening (.ok s)) :
    ∃ (listed : List String) (rest : Transcript),
      opening = ⟨.listDatabases, .ok listed⟩ :: rest ∧ OnlyNew listed opening ∧
      s.databases = listed ++ created opening ∧ s.KnowsSelected := by
  have hlisting (listed : List String) : ∀ name options,
      Call.listDatabases = .createDatabase name options → name ∉ listed := nofun
  cases h with
  | unselected listed _ =>
    exact ⟨listed, [], rfl, ⟨hlisting listed, trivial⟩, (List.append_nil _).symm, nofun⟩
  | @selected listed _ _ t _ h =>
    refine ⟨listed, t, rfl, ⟨hlisting listed, ?_⟩, ?_, h.knowsSelected nofun⟩
    · have hnone : listed ++ created [⟨.listDatabases, .ok listed⟩] = listed := List.append_nil _
      rw [hnone]
      exact h.onlyNew
    · rw [h.databases_eq]
      rfl

/-- **The account of databases.** Whatever the store answers, the selected database of a session is
one that the store listed when the session was opened, or one that the session has made; what was
listed is never to be made; and nothing is made twice. -/
theorem databases_accounted {config : Config} {codec : Codec} {libraries : Libraries}
    {opening : Transcript} {turns : List Turn} {s : Session}
    (h : Reached config codec libraries opening turns s) :
    ∃ (listed : List String) (rest : Transcript),
      opening = ⟨.listDatabases, .ok listed⟩ :: rest ∧
      (∀ name, s.database = some name →
        name ∈ listed ∨ name ∈ created (opening ++ conversation turns)) ∧
      (∀ name options answer,
        ⟨.createDatabase name options, answer⟩ ∈ opening ++ conversation turns →
          name ∉ listed) ∧
      (created (opening ++ conversation turns)).Nodup := by
  obtain ⟨s₀, hopening, hruns⟩ := h
  obtain ⟨listed, rest, hlisted, hnew, hknown, hselected⟩ := (opens_of_course hopening).onlyNew
  have honlyNew : OnlyNew listed (opening ++ conversation turns) := by
    rw [onlyNew_append, ← hknown]
    exact ⟨hnew, hruns.onlyNew⟩
  refine ⟨listed, rest, hlisted, fun name hname => ?_, fun name options answer hcall => ?_, ?_⟩
  · have hmem := hruns.knowsSelected hselected name hname
    rwa [hruns.databases_eq, hknown, List.append_assoc, ← created_append, List.mem_append] at hmem
  · exact honlyNew.not_mem_known hcall
  · exact honlyNew.nodup_created

/-- The store refuses to make the database. -/
def notMade (name : String) : Turn :=
  { operation := .selectDatabase name
    transcript := [⟨creation name, .error outage⟩]
    outcome := .error (.store outage) }

theorem databases_accounted_places :
    ∃ s, Reached (configured (some "people") true) .empty .lenient
      [⟨.listDatabases, .ok ["people"]⟩]
        [notMade "places", madeInPart "places", selectedAgain "places"] s ∧
      s.database = some "places" ∧
      "places" ∈ created (conversation
        [notMade "places", madeInPart "places", selectedAgain "places"]) ∧
      (created (conversation
        [notMade "places", madeInPart "places", selectedAgain "places"])).Nodup := by
  have hreached : Reached (configured (some "people") true) .empty .lenient
      [⟨.listDatabases, .ok ["people"]⟩]
      [notMade "places", madeInPart "places", selectedAgain "places"]
      { opened (configured none true) .empty .lenient ["people", "places"] with
        database := some "places" } :=
    ⟨_, .ask _ (.done _), .cons (.ask _ (.done _))
      (.cons (.ask _ (.ask _ (.done _))) (.cons (.done _) (.nil _)))⟩
  obtain ⟨listed, rest, hlisted, hselected, -, hnodup⟩ := databases_accounted hreached
  obtain ⟨rfl, rfl⟩ : listed = ["people"] ∧ rest = [] := by
    cases hlisted
    exact ⟨rfl, rfl⟩
  obtain hpeople | hmade := hselected "places" rfl
  · exact absurd hpeople (by decide)
  · exact ⟨_, hreached, rfl, hmade, hnodup⟩

end Session

end LinkedData
