import LinkedData.Proofs.Session.Run

/-!
# The databases that a session makes

A database that is not known is made when it is selected, and belongs to the known ones from then
on. So it is made only once, and it gets validation then or never.

A session with validation means its databases to have it too. But a database is known as soon as
it is made, before it has got validation. If the store fails in between, the database is not
selected; it is selected when that is tried again, without validation and without a complaint.
This is the only way for a database to miss it (`validated_iff_made_in_full`).
-/

namespace LinkedData

open Store

/-- The name of the database that a call has made, if it has made one. -/
def Store.AnsweredCall.created? : AnsweredCall → Option String
  | ⟨.createDatabase name _, .ok _⟩ => some name
  | _ => none

namespace Session

/-- The databases that were made. -/
def created (t : Transcript) : List String :=
  t.filterMap AnsweredCall.created?

/-- The store has accepted validation for the database, and has brought the database back. -/
def Validates (name : String) (t : Transcript) : Prop :=
  ∃ options, .validation true ∈ options ∧
    [⟨.setDatabaseOptions name options, .ok ()⟩, ⟨.bringOnline name, .ok ()⟩] <:+: t

/-- The last thing that happened is not that the store has accepted settings. -/
def Settled (t : Transcript) : Prop :=
  ∀ name options, t.getLast? ≠ some ⟨.setDatabaseOptions name options, .ok ()⟩

variable {s s' : Session} {op : Operation} {t : Transcript} {r : Except Error Unit} {name : String}

@[simp] theorem created_append (first second : Transcript) :
    created (first ++ second) = created first ++ created second :=
  List.filterMap_append

theorem created_eq_nil (h : ∀ c ∈ t, c.call.manages = false) : created t = [] := by
  refine List.filterMap_eq_nil_iff.mpr fun c hc => ?_
  have hcall := h c hc
  obtain ⟨call, answer⟩ := c
  cases call with
  | createDatabase => cases hcall
  | _ => rfl

theorem not_validates (h : ∀ c ∈ t, c.call.manages = false) : ¬ Validates name t := by
  rintro ⟨options, -, hpart⟩
  cases h _ (hpart.subset List.mem_cons_self)

theorem settled_of_not_manages (h : ∀ c ∈ t, c.call.manages = false) : Settled t := by
  intro name options hlast
  cases h _ (List.mem_of_getLast? hlast)

/-- A change of settings that was accepted is not cut in two where a settled part ends. -/
theorem validates_append_iff {first second : Transcript} (h : Settled first) :
    Validates name (first ++ second) ↔ Validates name first ∨ Validates name second := by
  constructor
  · rintro ⟨options, hmem, hpart⟩
    obtain hfirst | hsecond | ⟨front, back, hfront, hback, heq, hsuffix, -⟩ :=
      List.infix_append_iff_ne_nil.mp hpart
    · exact .inl ⟨options, hmem, hfirst⟩
    · exact .inr ⟨options, hmem, hsecond⟩
    · -- the seam is between the two calls, so the first one of them ends the first part
      obtain _ | ⟨_, _ | ⟨_, front⟩⟩ := front
      · exact absurd rfl hfront
      · obtain ⟨rfl, -⟩ := List.cons.inj heq
        exact absurd (List.singleton_suffix_iff_getLast?_eq_some.mp hsuffix) (h name options)
      · obtain ⟨-, hnil⟩ := List.cons.inj (List.cons.inj heq).2
        exact absurd (List.append_eq_nil_iff.mp hnil.symm).2 hback
  · rintro (⟨options, hmem, hpart⟩ | ⟨options, hmem, hpart⟩)
    · exact ⟨options, hmem, hpart.trans List.infix_append_left⟩
    · exact ⟨options, hmem, hpart.trans List.infix_append_right⟩

theorem validates_cons_iff {c : AnsweredCall}
    (hc : ∀ name options, c.call ≠ .setDatabaseOptions name options) :
    Validates name (c :: t) ↔ Validates name t := by
  constructor
  · rintro ⟨options, hmem, hpart⟩
    obtain hprefix | hpart := List.infix_cons_iff.mp hpart
    · exact absurd (congrArg AnsweredCall.call (List.cons_prefix_cons.mp hprefix).1.symm)
        (hc name options)
    · exact ⟨options, hmem, hpart⟩
  · rintro ⟨options, hmem, hpart⟩
    exact ⟨options, hmem, List.infix_cons_iff.mpr (.inr hpart)⟩

theorem Settled.cons {c : AnsweredCall}
    (hc : ∀ name options, c.call ≠ .setDatabaseOptions name options) (h : Settled t) :
    Settled (c :: t) := by
  intro name options hlast
  cases t with
  | nil => exact hc name options (congrArg AnsweredCall.call (Option.some.inj hlast))
  | cons d t => exact h name options (List.getLast?_cons_cons ▸ hlast)

/-! ## Steps -/

theorem SettingsChange.created_eq_nil {database : String} {options : List DatabaseOption}
    (h : SettingsChange database options t r) : created t = [] := by
  cases h <;> rfl

theorem SettingsChange.settled {database : String} {options : List DatabaseOption}
    (h : SettingsChange database options t r) : Settled t := by
  cases h <;> rintro _ _ ⟨⟩

/-- A change of settings gives validation if validation is among the settings and no call fails. -/
theorem SettingsChange.validates_iff {database : String} {options : List DatabaseOption}
    (h : SettingsChange database options t r) :
    Validates name t ↔ name = database ∧ .validation true ∈ options ∧ r = .ok () := by
  constructor
  · rintro ⟨options', hmem, hpart⟩
    cases h with
    | stays failure => exact absurd hpart.length_le (by simp)
    | refused failure => cases hpart.eq_of_length rfl
    | lost failure =>
      obtain h | h := List.infix_cons_iff.mp hpart
      · cases (List.cons_prefix_cons.mp h).1
      · cases h.eq_of_length rfl
    | done =>
      obtain h | h := List.infix_cons_iff.mp hpart
      · cases (List.cons_prefix_cons.mp h).1
      · cases h.eq_of_length rfl
        exact ⟨rfl, hmem, rfl⟩
  · rintro ⟨rfl, hmem, rfl⟩
    cases h
    exact ⟨options, hmem, (List.suffix_cons _ _).isInfix⟩

/-- Selecting a database makes it or no one. -/
theorem Selects.created_cases {database : String} (h : Selects database s t r s') :
    created t = [] ∨ created t = [database] ∧ database ∉ s.databases := by
  cases h with
  | known | refused => exact .inl rfl
  | made hnew _ => exact .inr ⟨rfl, hnew⟩
  | validated hnew _ hchange | unvalidated hnew _ hchange =>
    exact .inr ⟨congrArg (database :: ·) hchange.created_eq_nil, hnew⟩

theorem Selects.databases_eq {database : String} (h : Selects database s t r s') :
    s'.databases = s.databases ++ created t := by
  cases h with
  | known | refused => exact (List.append_nil _).symm
  | made => rfl
  | validated _ _ hchange | unvalidated _ _ hchange =>
    exact congrArg (s.databases ++ database :: ·) hchange.created_eq_nil.symm

theorem Selects.settled {database : String} (h : Selects database s t r s') : Settled t := by
  cases h with
  | known => rintro _ _ ⟨⟩
  | refused | made => rintro _ _ ⟨⟩
  | validated _ _ hchange | unvalidated _ _ hchange =>
    exact .cons (fun _ _ => Call.noConfusion) hchange.settled

theorem Selects.validates_iff {database : String} (hvalidate : s.validations = true)
    (h : Selects database s t r s') : Validates name t ↔ name ∈ created t ∧ r = .ok () := by
  have iff_of_change {t : Transcript}
      (hchange : SettingsChange database [.validation true] t r) :
      Validates name (⟨creation database, .ok ()⟩ :: t) ↔
        name ∈ created (⟨creation database, .ok ()⟩ :: t) ∧ r = .ok () := by
    rw [validates_cons_iff fun _ _ => Call.noConfusion, hchange.validates_iff]
    change _ ↔ name ∈ database :: created t ∧ _
    simp [hchange.created_eq_nil]
  cases h with
  | known | refused =>
    constructor
    · rintro ⟨_, _, hpart⟩
      exact absurd hpart.length_le (by simp)
    · rintro ⟨⟨⟩, -⟩
  | made _ hplain => rw [hplain] at hvalidate; cases hvalidate
  | validated _ _ hchange | unvalidated _ _ hchange => exact iff_of_change hchange

theorem Step.databases_eq (h : Step s op t r s') : s'.databases = s.databases ++ created t := by
  obtain ⟨database, -, h⟩ | ⟨hdatabases, ⟨database, option, -, h⟩ | h⟩ := h.manages_cases
  · exact h.databases_eq
  · rw [hdatabases, h.created_eq_nil, List.append_nil]
  · rw [hdatabases, created_eq_nil h, List.append_nil]

/-- Only databases that are not known are made. -/
theorem Step.not_mem_of_created (h : Step s op t r s') (hname : name ∈ created t) :
    name ∉ s.databases := by
  obtain ⟨database, -, h⟩ | ⟨-, ⟨database, option, -, h⟩ | h⟩ := h.manages_cases
  · obtain hnil | ⟨hone, hnew⟩ := h.created_cases
    · simp [hnil] at hname
    · simp only [hone, List.mem_singleton] at hname
      exact hname ▸ hnew
  · simp [h.created_eq_nil] at hname
  · simp [created_eq_nil h] at hname

theorem Step.settled (h : Step s op t r s') : Settled t := by
  obtain ⟨database, -, h⟩ | ⟨-, ⟨database, option, -, h⟩ | h⟩ := h.manages_cases
  · exact h.settled
  · exact h.settled
  · exact settled_of_not_manages h

/-- If databases are to have validation, a step gives it to those it makes, unless it fails. -/
theorem Step.validates_iff (hvalidate : s.validations = true)
    (hop : ∀ enabled, op ≠ .setValidations enabled) (h : Step s op t r s') :
    Validates name t ↔ name ∈ created t ∧ r = .ok () := by
  obtain ⟨database, -, h⟩ | ⟨-, ⟨database, option, hoption, h⟩ | h⟩ := h.manages_cases
  · exact h.validates_iff hvalidate
  · -- the setting is the profile of reasoning, of a database that is there already
    have hother : DatabaseOption.validation true ∉ [option] := by
      rintro hmem
      obtain rfl := List.mem_singleton.mp hmem
      exact hop true (Operation.eq_setValidations_of_setting? hoption)
    simp [h.validates_iff, h.created_eq_nil, hother]
  · simp [created_eq_nil h, not_validates h]

/-! ## Runs -/

theorem mem_created_conversation {turns : List Turn} :
    name ∈ created (conversation turns) ↔ ∃ turn ∈ turns, name ∈ created turn.transcript := by
  induction turns with
  | nil => simp [created]
  | cons turn turns ih => simp [ih]

/-- What is known is not made any more. -/
theorem Runs.not_mem_created {turns : List Turn} (h : Runs s turns s')
    (hname : name ∈ s.databases) : name ∉ created (conversation turns) := by
  induction h with
  | nil => simp [created]
  | cons h rest ih =>
    have hstep := step_of_converses h
    rw [conversation_cons, created_append, List.mem_append]
    rintro (hfirst | hrest)
    · exact hstep.not_mem_of_created hfirst hname
    · exact ih (hstep.databases_eq ▸ List.mem_append_left _ hname) hrest

/-- The database is made in one turn only. -/
theorem Runs.turn_eq_of_created {turns : List Turn} (h : Runs s turns s') {turn other : Turn}
    (hturn : turn ∈ turns) (hname : name ∈ created turn.transcript)
    (hother : other ∈ turns) (hagain : name ∈ created other.transcript) : other = turn := by
  induction h with
  | nil => cases hturn
  | @cons s s₁ _ head tail h rest ih =>
    have hstep := step_of_converses h
    -- what the first turn makes is known when the others are taken
    have once {later : Turn} (hlater : later ∈ tail) (hlast : name ∈ created later.transcript) :
        name ∉ created head.transcript := fun hhead =>
      rest.not_mem_created (hstep.databases_eq ▸ List.mem_append_right _ hhead)
        (mem_created_conversation.mpr ⟨later, hlater, hlast⟩)
    obtain rfl | hlater := List.mem_cons.mp hturn
    · obtain rfl | hafter := List.mem_cons.mp hother
      · rfl
      · exact absurd hname (once hafter hagain)
    · obtain rfl | hafter := List.mem_cons.mp hother
      · exact absurd hagain (once hlater hname)
      · exact ih hlater hafter

/-- A run gives validation to the databases that it makes in turns that do not fail. -/
theorem Runs.validates_iff {turns : List Turn} (h : Runs s turns s')
    (hvalidate : s.validations = true)
    (hkept : ∀ turn ∈ turns, ∀ enabled, turn.operation ≠ .setValidations enabled) :
    Validates name (conversation turns) ↔
      ∃ turn ∈ turns, name ∈ created turn.transcript ∧ turn.outcome = .ok () := by
  induction h with
  | nil => simp [not_validates]
  | cons h rest ih =>
    have hstep := step_of_converses h
    obtain ⟨hfirst, hrest⟩ := List.forall_mem_cons.mp hkept
    rw [conversation_cons, validates_append_iff hstep.settled,
      hstep.validates_iff hvalidate hfirst,
      ih ((hstep.validations_eq hfirst).trans hvalidate) hrest]
    simp

/-! ## Openings -/

/-- What is made when a session is opened is known, and gets validation if it is to have it. -/
theorem Opens.databases {config : Config} {codec : Codec} {libraries : Libraries}
    {opening : Transcript} (h : Opens config codec libraries opening (.ok s)) :
    s.validations = config.validate ∧ Settled opening ∧
      (name ∈ created opening → name ∈ s.databases) ∧
      (config.validate = true → (Validates name opening ↔ name ∈ created opening)) := by
  cases h with
  | unselected databases _ =>
    refine ⟨rfl, by rintro _ _ ⟨⟩, by rintro ⟨⟩, fun _ => ?_⟩
    exact iff_of_false (not_validates (by simp [Call.manages])) (by rintro ⟨⟩)
  | selected databases _ h =>
    refine ⟨h.validations_eq, .cons (fun _ _ => Call.noConfusion) h.settled, fun hname => ?_,
      fun hvalidate => ?_⟩
    · rw [h.databases_eq]
      exact List.mem_append_right _ hname
    · rw [validates_cons_iff fun _ _ => Call.noConfusion, h.validates_iff hvalidate]
      exact and_iff_left rfl

/-- In a session with validation, a database that the session has made and that is now selected has
got validation unless the operation that made it failed. -/
theorem validated_iff_made_in_full {config : Config} {codec : Codec} {libraries : Libraries}
    {opening : Transcript} {earlier : List Turn} {turn : Turn} {s : Session} {name : String}
    (hreached : Reached config codec libraries opening (earlier ++ [turn]) s)
    (hvalidate : config.validate = true)
    (hkept : ∀ past ∈ earlier, ∀ enabled, past.operation ≠ .setValidations enabled)
    (hselect : turn.operation = .selectDatabase name) (hok : turn.outcome = .ok ())
    (hcreated : name ∈ created (opening ++ conversation (earlier ++ [turn]))) :
    Validates name (opening ++ conversation (earlier ++ [turn])) ↔
      ∀ past ∈ earlier, name ∈ created past.transcript → past.outcome = .ok () := by
  obtain ⟨s₀, hopening, hruns⟩ := hreached
  obtain ⟨hvalidations, hsettled, hknown, hopens⟩ := (opens_of_course hopening).databases
  have hkept : ∀ past ∈ earlier ++ [turn], ∀ enabled, past.operation ≠ .setValidations enabled := by
    simp only [List.mem_append, List.mem_singleton]
    rintro past (hpast | rfl) enabled
    · exact hkept past hpast enabled
    · rw [hselect]
      exact Operation.noConfusion
  rw [validates_append_iff hsettled, hopens hvalidate,
    hruns.validates_iff (hvalidations.trans hvalidate) hkept]
  constructor
  · -- whoever else has made the database, it is the one that has given it validation
    rintro (hname | ⟨other, hother, hname, hdone⟩) past hpast hpastname
    · exact absurd (mem_created_conversation.mpr ⟨past, List.mem_append_left _ hpast, hpastname⟩)
        (hruns.not_mem_created (hknown hname))
    · rw [hruns.turn_eq_of_created hother hname (List.mem_append_left _ hpast) hpastname, hdone]
  · intro hpast
    rw [created_append, List.mem_append, mem_created_conversation] at hcreated
    obtain hname | ⟨other, hother, hname⟩ := hcreated
    · exact .inl hname
    · refine .inr ⟨other, hother, hname, ?_⟩
      obtain hother | hother := List.mem_append.mp hother
      · exact hpast other hother hname
      · rw [List.mem_singleton.mp hother, hok]

/-- The database is made and gets validation. -/
def madeInFull (name : String) : Turn :=
  { operation := .selectDatabase name
    transcript := [⟨creation name, .ok ()⟩, ⟨.takeOffline name, .ok ()⟩,
      ⟨.setDatabaseOptions name [.validation true], .ok ()⟩, ⟨.bringOnline name, .ok ()⟩]
    outcome := .ok () }

/-- The database is made, and stays without validation since it cannot be taken offline. -/
def madeInPart (name : String) : Turn :=
  { operation := .selectDatabase name
    transcript := [⟨creation name, .ok ()⟩, ⟨.takeOffline name, .error outage⟩]
    outcome := .error (.store outage) }

/-- The database is known and is selected. -/
def selectedAgain (name : String) : Turn :=
  { operation := .selectDatabase name
    transcript := []
    outcome := .ok () }

theorem validated_places :
    Reached (configured none true) .empty .lenient [⟨.listDatabases, .ok []⟩]
        ([madeInFull "places"] ++ [selectedAgain "places"])
        { opened (configured none true) .empty .lenient ["places"] with
          database := some "places" } ∧
      Validates "places" (⟨.listDatabases, .ok []⟩ ::
        conversation ([madeInFull "places"] ++ [selectedAgain "places"])) := by
  have hreached : Reached (configured none true) .empty .lenient [⟨.listDatabases, .ok []⟩]
      ([madeInFull "places"] ++ [selectedAgain "places"])
      { opened (configured none true) .empty .lenient ["places"] with database := some "places" } :=
    ⟨_, .ask _ (.done _), .cons (.ask _ (.ask _ (.ask _ (.ask _ (.done _)))))
      (.cons (.done _) (.nil _))⟩
  refine ⟨hreached, (validated_iff_made_in_full hreached rfl ?_ rfl rfl ?_).mpr ?_⟩
  · simp [madeInFull]
  · decide
  · simp [madeInFull]

/-- It is not so that a session with validation always gives it to the databases that it makes
before it selects them. -/
theorem not_always_validated :
    ¬ ∀ (config : Config) (codec : Codec) (libraries : Libraries) (opening : Transcript)
        (earlier : List Turn) (turn : Turn) (s : Session) (name : String),
      Reached config codec libraries opening (earlier ++ [turn]) s → config.validate = true →
      (∀ past ∈ earlier, ∀ enabled, past.operation ≠ .setValidations enabled) →
      turn.operation = .selectDatabase name → turn.outcome = .ok () →
      name ∈ created (opening ++ conversation (earlier ++ [turn])) →
        Validates name (opening ++ conversation (earlier ++ [turn])) := by
  intro h
  have hreached : Reached (configured none true) .empty .lenient [⟨.listDatabases, .ok []⟩]
      ([madeInPart "places"] ++ [selectedAgain "places"])
      { opened (configured none true) .empty .lenient ["places"] with database := some "places" } :=
    ⟨_, .ask _ (.done _), .cons (.ask _ (.ask _ (.done _))) (.cons (.done _) (.nil _))⟩
  obtain ⟨options, -, hpart⟩ := h _ _ _ _ _ _ _ "places" hreached rfl (by simp [madeInPart]) rfl rfl
    (by decide)
  have hmem := hpart.subset List.mem_cons_self
  simp [conversation, madeInPart, selectedAgain, creation] at hmem

end Session

end LinkedData
