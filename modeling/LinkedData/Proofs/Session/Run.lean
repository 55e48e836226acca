import LinkedData.Proofs.Session.Step

/-!
# Runs of sessions

A session is opened, and then asked to do one thing after the other. A `Turn` is one of these
operations together with how it went. `Reached` says that a session has come about in this way
from a configuration, whatever the store answered on the way.
-/

namespace LinkedData

open Store

/-- Libraries that take every text for a regular expression, and have nothing to report. -/
def Libraries.lenient : Libraries :=
  ⟨.lenient, fun _ => ""⟩

namespace Session

/-- An operation, and how it went. -/
structure Turn where
  /-- what was to be done -/
  operation : Operation
  /-- what was called and answered -/
  transcript : Transcript
  /-- whether there was an error -/
  outcome : Except Error Unit

/-- The session takes the turns, in order. -/
inductive Runs : Session → List Turn → Session → Prop where
  /-- no turn -/
  | nil (s : Session) : Runs s [] s
  /-- one turn, and the others -/
  | cons {s s' s'' : Session} {turn : Turn} {turns : List Turn}
      (h : Converses turn.operation.perform s turn.transcript turn.outcome s')
      (rest : Runs s' turns s'') : Runs s (turn :: turns) s''

/-- What was called and answered in the turns, in order. -/
def conversation (turns : List Turn) : Transcript :=
  turns.flatMap Turn.transcript

@[simp] theorem conversation_nil : conversation [] = [] := rfl

@[simp] theorem conversation_cons (turn : Turn) (turns : List Turn) :
    conversation (turn :: turns) = turn.transcript ++ conversation turns := rfl

theorem runs_append_iff {s s'' : Session} {first second : List Turn} :
    Runs s (first ++ second) s'' ↔ ∃ s', Runs s first s' ∧ Runs s' second s'' := by
  induction first generalizing s with
  | nil =>
    constructor
    · intro h
      exact ⟨s, .nil s, h⟩
    · rintro ⟨s', hfirst, hsecond⟩
      cases hfirst
      exact hsecond
  | cons turn turns ih =>
    constructor
    · intro h
      cases h with
      | cons h rest =>
        obtain ⟨s', hfirst, hsecond⟩ := ih.mp rest
        exact ⟨s', .cons h hfirst, hsecond⟩
    · rintro ⟨s', hfirst, hsecond⟩
      cases hfirst with
      | cons h rest => exact .cons h (ih.mpr ⟨s', rest, hsecond⟩)

/-! ## Opening -/

/-- What may come of opening a session. -/
inductive Opens (config : Config) (codec : Codec) (libraries : Libraries) :
    Transcript → Except Error Session → Prop where
  /-- the store does not say which databases there are -/
  | unlisted (failure : Failure) :
      Opens config codec libraries [⟨.listDatabases, .error failure⟩] (.error (.store failure))
  /-- no database is to be selected -/
  | unselected (databases : List String) (hconfig : config.database = none) :
      Opens config codec libraries [⟨.listDatabases, .ok databases⟩]
        (.ok (opened config codec libraries databases))
  /-- a database is selected -/
  | selected (databases : List String) {name : String} (hconfig : config.database = some name)
      {t : Transcript} {s : Session}
      (h : Selects name (opened config codec libraries databases) t (.ok ()) s) :
      Opens config codec libraries (⟨.listDatabases, .ok databases⟩ :: t) (.ok s)
  /-- a database cannot be selected, and there is no session -/
  | failed (databases : List String) {name : String} (hconfig : config.database = some name)
      {t : Transcript} {e : Error} {s : Session}
      (h : Selects name (opened config codec libraries databases) t (.error e) s) :
      Opens config codec libraries (⟨.listDatabases, .ok databases⟩ :: t) (.error e)

theorem opens_of_course {config : Config} {codec : Codec} {libraries : Libraries} {t : Transcript}
    {r : Except Error Session} (h : Exchange.Course (connect config codec libraries) t r) :
    Opens config codec libraries t r := by
  obtain ⟨listed, first, rest, rfl, hlist, hselect⟩ := Exchange.course_bind_iff.mp h
  obtain rfl := Exchange.course_call_iff.mp hlist
  cases listed with
  | error failure =>
    obtain ⟨rfl, rfl⟩ := Exchange.course_done_iff.mp hselect
    exact .unlisted failure
  | ok databases =>
    obtain ⟨⟨outcome, s⟩, second, last, rfl, hconfigured, hlast⟩ :=
      Exchange.course_bind_iff.mp hselect
    obtain ⟨rfl, rfl⟩ := Exchange.course_done_iff.mp hlast
    rw [List.append_nil]
    cases hconfig : config.database with
    | none =>
      rw [selectConfigured, hconfig] at hconfigured
      obtain ⟨rfl, rfl, rfl⟩ := Converses.pure_iff.mp hconfigured
      exact .unselected databases hconfig
    | some name =>
      rw [selectConfigured, hconfig] at hconfigured
      have hselects := selects_of_converses hconfigured
      cases outcome with
      | error e => exact .failed databases hconfig hselects
      | ok _ => exact .selected databases hconfig hselects

/-- The session has been opened, and has taken the turns since. -/
def Reached (config : Config) (codec : Codec) (libraries : Libraries) (opening : Transcript)
    (turns : List Turn) (s : Session) : Prop :=
  ∃ s₀, Exchange.Course (connect config codec libraries) opening (.ok s₀) ∧ Runs s₀ turns s

/-! ## Sessions to look at -/

/-- The configuration without variables, but for the database and validation. -/
def configured (database : Option String) (validate : Bool) : Config :=
  { endpoint := Config.defaultEndpoint
    user := Config.defaultCredential
    password := Config.defaultCredential
    database
    validate }

/-- A session that knows one database, has selected it, and has validation. -/
def amongPeople : Session :=
  { opened (configured none true) .empty .lenient ["people"] with database := some "people" }

/-- A failure that says nothing about what was called. -/
def outage : Failure :=
  ⟨.transport, "timed out"⟩

end Session

end LinkedData
