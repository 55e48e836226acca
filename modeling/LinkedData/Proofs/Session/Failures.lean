import LinkedData.Proofs.Session.Run

/-!
# What a failure leaves behind

An operation that fails is not undone. Two things are said of what it leaves behind.

In the store, a database can be left offline. Settings are changed last if at all
(`ChangesLast`), so that whatever ends the change also ends the operation, and the database is
brought back unless the store has refused the settings (`offline_iff_refused`).

In the session, nothing is left behind but the wish for validation, which is noted down before
the settings are changed (`unchanged_of_failed`). The profile of reasoning is noted down after
that.
-/

namespace LinkedData

open Store

namespace Session

variable {s s' : Session} {op : Operation} {t : Transcript} {d : String}

/-! ## Databases that are left offline -/

/-- The database has been taken offline, and there was no attempt to bring it back. -/
def LeftOffline (d : String) (t : Transcript) : Prop :=
  ∃ before after, t = before ++ ⟨.takeOffline d, .ok ()⟩ :: after ∧
    ∀ answer, ⟨.bringOnline d, answer⟩ ∉ after

/-- The last thing that happened is that the store did not accept settings of the database, which
had been taken offline for them. -/
def SettingsRefused (d : String) (t : Transcript) (r : Except Error Unit) : Prop :=
  ∃ options failure,
    [⟨.takeOffline d, .ok ()⟩, ⟨.setDatabaseOptions d options, .error failure⟩] <:+ t ∧
      r = .error (.store failure)

/-- Only a change of settings takes a database offline, and nothing comes after the change. -/
inductive ChangesLast : Transcript → Except Error Unit → Prop where
  /-- nothing is called any more -/
  | nil (r : Except Error Unit) : ChangesLast [] r
  /-- settings are changed -/
  | change {database : String} {options : List DatabaseOption} {t : Transcript}
      {r : Except Error Unit} (h : SettingsChange database options t r) : ChangesLast t r
  /-- something else is called first -/
  | cons {c : AnsweredCall} {t : Transcript} {r : Except Error Unit}
      (hc : ∀ database, c.call ≠ .takeOffline database) (h : ChangesLast t r) :
      ChangesLast (c :: t) r

theorem leftOffline_cons {c : AnsweredCall} :
    LeftOffline d (c :: t) ↔
      (c = ⟨.takeOffline d, .ok ()⟩ ∧ ∀ answer, ⟨.bringOnline d, answer⟩ ∉ t) ∨
        LeftOffline d t := by
  constructor
  · rintro ⟨_ | ⟨_, before⟩, after, h, hafter⟩
    · obtain ⟨rfl, rfl⟩ := List.cons.inj h
      exact .inl ⟨rfl, hafter⟩
    · obtain ⟨rfl, rfl⟩ := List.cons.inj h
      exact .inr ⟨before, after, rfl, hafter⟩
  · rintro (⟨rfl, hafter⟩ | ⟨before, after, rfl, hafter⟩)
    · exact ⟨[], t, rfl, hafter⟩
    · exact ⟨c :: before, after, rfl, hafter⟩

theorem not_leftOffline (h : ∀ c ∈ t, c.call ≠ .takeOffline d) : ¬ LeftOffline d t := by
  rintro ⟨before, after, rfl, -⟩
  exact h _ (List.mem_append_right before List.mem_cons_self) rfl

/-- A change of settings leaves the database offline if it ends between the first and the last of
its calls. -/
theorem SettingsChange.leftOffline_iff {database : String} {options : List DatabaseOption}
    {r : Except Error Unit} (h : SettingsChange database options t r) :
    LeftOffline d t ↔ SettingsRefused d t r := by
  cases h with
  | stays failure =>
    constructor
    · intro h
      obtain ⟨⟨⟩, -⟩ | h := leftOffline_cons.mp h
      exact absurd h (not_leftOffline (by simp))
    · rintro ⟨_, _, hsuffix, -⟩
      exact absurd hsuffix.length_le (by simp)
  | refused failure =>
    constructor
    · intro h
      obtain ⟨hoff, -⟩ | hrest := leftOffline_cons.mp h
      · cases hoff
        exact ⟨options, failure, List.suffix_rfl, rfl⟩
      · exact absurd hrest (not_leftOffline (by simp))
    · rintro ⟨_, _, hsuffix, -⟩
      cases hsuffix.eq_of_length rfl
      exact ⟨[], _, rfl, by simp⟩
  -- from here on there is an attempt to bring the database back
  | lost failure =>
    constructor
    · intro h
      obtain ⟨hoff, hafter⟩ | h := leftOffline_cons.mp h
      · cases hoff
        exact absurd (by simp) (hafter (.error failure))
      · exact absurd h (not_leftOffline (by simp))
    · rintro ⟨_, _, hsuffix, -⟩
      obtain h | h := List.suffix_cons_iff.mp hsuffix
      · cases h
      · cases h.eq_of_length rfl
  | done =>
    constructor
    · intro h
      obtain ⟨hoff, hafter⟩ | h := leftOffline_cons.mp h
      · cases hoff
        exact absurd (by simp) (hafter (.ok ()))
      · exact absurd h (not_leftOffline (by simp))
    · rintro ⟨_, _, -, hr⟩
      cases hr

theorem ChangesLast.leftOffline_iff {r : Except Error Unit} (h : ChangesLast t r) :
    LeftOffline d t ↔ SettingsRefused d t r := by
  induction h with
  | nil r =>
    constructor
    · intro h
      exact absurd h (not_leftOffline (by simp))
    · rintro ⟨_, _, hsuffix, -⟩
      exact absurd hsuffix.length_le (by simp)
  | change h => exact SettingsChange.leftOffline_iff h
  | @cons c t r hc h ih =>
    rw [leftOffline_cons, ih]
    constructor
    · rintro (⟨rfl, -⟩ | ⟨options, failure, hsuffix, hr⟩)
      · exact absurd rfl (hc d)
      · exact ⟨options, failure, hsuffix.trans (List.suffix_cons c t), hr⟩
    · rintro ⟨options, failure, hsuffix, hr⟩
      obtain hall | hrest := List.suffix_cons_iff.mp hsuffix
      · cases hall
        exact absurd rfl (hc d)
      · exact .inr ⟨options, failure, hrest, hr⟩

theorem Selects.changesLast {name : String} {r : Except Error Unit}
    (h : Selects name s t r s') : ChangesLast t r := by
  cases h with
  | known _ => exact .nil _
  | refused _ failure => exact .cons (by simp [creation]) (.nil _)
  | made _ _ => exact .cons (by simp [creation]) (.nil _)
  | validated _ _ hchange | unvalidated _ _ hchange =>
    exact .cons (by simp [creation]) (.change hchange)

theorem ChangesLast.of_not_manages {r : Except Error Unit}
    (h : ∀ c ∈ t, c.call.manages = false) : ChangesLast t r := by
  induction t with
  | nil => exact .nil r
  | cons c t ih =>
    obtain ⟨hc, ht⟩ := List.forall_mem_cons.mp h
    refine .cons (fun database hoff => ?_) (ih ht)
    rw [hoff] at hc
    cases hc

theorem Step.changesLast {r : Except Error Unit} (h : Step s op t r s') : ChangesLast t r := by
  obtain ⟨name, -, h⟩ | ⟨-, ⟨database, option, -, h⟩ | h⟩ := h.manages_cases
  · exact h.changesLast
  · exact .change h
  · exact .of_not_manages h

theorem Opens.changesLast {config : Config} {codec : Codec} {libraries : Libraries}
    {r : Except Error Session}
    (h : Opens config codec libraries t r) : ChangesLast t (r.map fun _ => ()) := by
  cases h with
  | unlisted failure => exact .cons (by simp) (.nil _)
  | unselected databases => exact .cons (by simp) (.nil _)
  | selected databases _ h | failed databases _ h => exact .cons (by simp) h.changesLast

/-- How opening a session, or an operation of a session, may go. -/
inductive Goes : Transcript → Except Error Unit → Prop where
  /-- a session is opened, or there is an error -/
  | opening {config : Config} {codec : Codec} {libraries : Libraries} {t : Transcript}
      {r : Except Error Session} (h : Exchange.Course (connect config codec libraries) t r) :
      Goes t (r.map fun _ => ())
  /-- a session is asked to do something -/
  | operation {op : Operation} {s s' : Session} {t : Transcript} {r : Except Error Unit}
      (h : Converses op.perform s t r s') : Goes t r

/-- Whatever is asked for and whatever the store answers, a database is left offline exactly if the
store takes it offline and then refuses its settings. -/
theorem offline_iff_refused {t : Transcript} {r : Except Error Unit} {d : String}
    (h : Goes t r) : LeftOffline d t ↔ SettingsRefused d t r := by
  have hlast : ChangesLast t r := by
    cases h with
    | opening h => exact (opens_of_course h).changesLast
    | operation h => exact (step_of_converses h).changesLast
  exact hlast.leftOffline_iff

/-- The store takes a database offline and does not accept a setting of it. -/
def refusal (database : String) (option : DatabaseOption) : Transcript :=
  [⟨.takeOffline database, .ok ()⟩,
    ⟨.setDatabaseOptions database [option], .error outage⟩]

/-- The store makes a database and then does not give it validation. -/
def refusedCreation (database : String) : Transcript :=
  ⟨.listDatabases, .ok []⟩ :: ⟨creation database, .ok ()⟩ ::
    refusal database (.validation true)

theorem refused_setReasoning :
    Goes (refusal "people" (.reasoning .rl)) (.error (.store outage)) := by
  have h : Converses (Operation.setReasoning .rl).perform amongPeople
      (refusal "people" (.reasoning .rl)) (.error (.store outage)) amongPeople :=
    .ask _ (.ask _ (.done _))
  exact .operation h

theorem refused_left_offline :
    Goes (refusal "people" (.reasoning .rl)) (.error (.store outage)) ∧
      LeftOffline "people" (refusal "people" (.reasoning .rl)) ∧
    Goes (refusedCreation "places") (.error (.store outage)) ∧
      LeftOffline "places" (refusedCreation "places") := by
  have hopening : Goes (refusedCreation "places") (.error (.store outage)) := by
    have h : Exchange.Course (connect (configured (some "places") true) .empty .lenient)
        (refusedCreation "places") (.error (.store outage)) :=
      .ask _ (.ask _ (.ask _ (.ask _ (.done _))))
    exact .opening h
  have hsuffix : refusal "places" (.validation true) <:+ refusedCreation "places" :=
    ⟨[_, _], rfl⟩
  exact ⟨refused_setReasoning,
    (offline_iff_refused refused_setReasoning).mpr ⟨_, _, List.suffix_rfl, rfl⟩,
    hopening, (offline_iff_refused hopening).mpr ⟨_, _, hsuffix, rfl⟩⟩

/-- It is not so that a database that was taken offline is always brought back. -/
theorem not_always_brought_back :
    ¬ ∀ (t : Transcript) (r : Except Error Unit) (d : String), Goes t r → ¬ LeftOffline d t := by
  intro h
  exact h _ _ "people" refused_setReasoning ⟨[], _, rfl, by simp⟩

/-! ## What a failed operation changes -/

/-- A failed operation keeps what is selected, under which profile queries are answered, and the
current query. -/
theorem Step.kept_of_failed {r : Except Error Unit} {e : Error} (h : Step s op t r s')
    (hop : ∀ pattern, op ≠ .query pattern) (hr : r = .error e) :
    s'.database = s.database ∧ s'.reasoning = s.reasoning ∧ s'.current = s.current := by
  cases h with
  | refused | writeFails | asks | fetchFails | removes | switches | reasoningFails =>
    exact ⟨rfl, rfl, rfl⟩
  | forgets => exact absurd rfl (hop _)
  | selects h =>
    cases h with
    | refused | unvalidated => exact ⟨rfl, rfl, rfl⟩
    | _ => cases hr
  | _ => cases hr

/-- A failed operation, if it does not replace the current query, changes at most whether later
databases get validation: it does so if it was to switch validation and a database is selected. -/
theorem unchanged_of_failed {e : Error} (hop : ∀ pattern, op ≠ .query pattern)
    (h : Converses op.perform s t (.error e) s') :
    s'.database = s.database ∧ s'.reasoning = s.reasoning ∧ s'.current = s.current ∧
      (s'.validations = s.validations ↔
        ∀ enabled, op = .setValidations enabled → s.database = none ∨ s.validations = enabled) := by
  have hstep := step_of_converses h
  obtain ⟨hdatabase, hreasoning, hcurrent⟩ := hstep.kept_of_failed hop rfl
  refine ⟨hdatabase, hreasoning, hcurrent, ?_⟩
  by_cases hswitch : ∃ enabled, op = .setValidations enabled
  · obtain ⟨enabled, rfl⟩ := hswitch
    obtain ⟨hnone, rfl⟩ | ⟨hselected, rfl⟩ := hstep.setValidations
    · simp [hnone]
    · simp [hselected, eq_comm]
  · have hnot : ∀ enabled, op ≠ .setValidations enabled :=
      fun enabled hop => hswitch ⟨enabled, hop⟩
    exact ⟨fun _ enabled hop => absurd hop (hnot enabled), fun _ => hstep.validations_eq hnot⟩

/-- Validation cannot be switched off, and later databases will not get it. -/
theorem failed_setValidations :
    Converses (Operation.setValidations false).perform amongPeople
      [⟨.takeOffline "people", .error outage⟩] (.error (.store outage))
      { amongPeople with validations := false } :=
  .ask _ (.done _)

theorem unchanged_but_validation :
    ∃ s', Converses (Operation.setValidations false).perform amongPeople
        [⟨.takeOffline "people", .error outage⟩] (.error (.store outage)) s' ∧
      s'.database = some "people" ∧ s'.validations ≠ amongPeople.validations := by
  obtain ⟨hdatabase, -, -, hvalidations⟩ :=
    unchanged_of_failed (fun _ => Operation.noConfusion) failed_setValidations
  refine ⟨_, failed_setValidations, hdatabase, fun hkept => ?_⟩
  obtain hnone | hfalse := hvalidations.mp hkept false rfl
  · cases hnone
  · cases hfalse

/-- It is not so that a failed operation other than a query always leaves the session as it
was. -/
theorem not_always_unchanged :
    ¬ ∀ (op : Operation) (s s' : Session) (t : Transcript) (e : Error),
      (∀ pattern, op ≠ .query pattern) → Converses op.perform s t (.error e) s' →
        s'.database = s.database ∧ s'.validations = s.validations ∧
          s'.reasoning = s.reasoning ∧ s'.current = s.current := by
  intro h
  obtain ⟨-, hvalidations, -, -⟩ :=
    h _ _ _ _ _ (fun _ => Operation.noConfusion) failed_setValidations
  cases hvalidations

end Session

end LinkedData
