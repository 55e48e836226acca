import LinkedData.Proofs.Session.Run

/-!
# What queries are sent with

The bounds of a query stay with the query, and the profile of reasoning stays with the session. So
what a query is sent with depends on everything that the session was asked to do before, however
that went.

`refinements` goes through the turns and keeps account of what is to be sent, without a session. A
session agrees with this account at all times (`Runs.agrees`), and what it runs is sent with just
that. It is different with a query whose matches are to be removed: the profile is sent with it,
but not the bounds (`sent_with`).
-/

namespace LinkedData

open Store

namespace Session

/-- What refines a query. -/
structure Refinements where
  /-- how many statements are wanted at most -/
  limit : Option UInt64
  /-- how many statements are passed over -/
  offset : Option UInt64
  /-- the profile of reasoning -/
  reasoning : Option ReasoningLevel

/-- What refines queries after an operation with an outcome. Bounds are forgotten with the query
to which they belong, even if there is no other one in its place. -/
def Refinements.after (now : Refinements) : Operation → Except Error Unit → Refinements
  | .query _, _ => { now with limit := none, offset := none }
  | .limit count, .ok _ => { now with limit := some count }
  | .offset count, .ok _ => { now with offset := some count }
  | .setReasoning level, .ok _ => { now with reasoning := some level }
  | .clearReasoning, .ok _ => { now with reasoning := none }
  | _, _ => now

/-- What refines queries after the turns. -/
def refinements (turns : List Turn) : Refinements :=
  turns.foldl (fun now turn => now.after turn.operation turn.outcome) ⟨none, none, none⟩

/-- The session has noted down just this. -/
structure Agrees (s : Session) (now : Refinements) : Prop where
  /-- the profile is that of the session -/
  reasoning : s.reasoning = now.reasoning
  /-- the bounds are those of the current query -/
  bounds : ∀ query, s.current = some query →
    query.limit = now.limit ∧ query.offset = now.offset

variable {s s' : Session} {op : Operation} {t : Transcript} {r : Except Error Unit}
  {now : Refinements}

theorem bounds_of_ofPattern {check : RegexCheck} {codec : Codec} {pattern : Node} {query : Query}
    (h : Query.ofPattern check codec pattern = .ok query) :
    query.limit = none ∧ query.offset = none := by
  rw [Query.ofPattern] at h
  cases hgroup : Pattern.compile check codec pattern with
  | error e => rw [hgroup] at h; cases h
  | ok group => rw [hgroup] at h; cases h; exact ⟨rfl, rfl⟩

theorem after_of_refused (hop : op.redefines = false) (e : Error) :
    now.after op (.error e) = now := by
  cases op with
  | query => cases hop
  | _ => rfl

theorem after_of_document {document : Codec → Except Error String}
    (hop : op.document? = some document) (r : Except Error Unit) : now.after op r = now := by
  cases op with
  | store | remove | define | retractDefinition | validate | retractValidation | uploadRules => rfl
  | _ => cases hop

theorem after_of_asks (hop : op.asks) (r : Except Error Unit) : now.after op r = now := by
  cases op with
  | run | all | first | tuples => rfl
  | _ => cases hop

theorem Agrees.selects {name : String} (hnow : Agrees s now) (h : Selects name s t r s') :
    Agrees s' now := by
  cases h <;> exact ⟨hnow.reasoning, hnow.bounds⟩

theorem Agrees.of_current {query : Query} (hreasoning : s.reasoning = now.reasoning)
    (hbounds : query.limit = now.limit ∧ query.offset = now.offset) :
    Agrees { s with current := some query } now := by
  refine ⟨hreasoning, ?_⟩
  rintro _ ⟨⟩
  exact hbounds

/-- A step does to what is noted down what the account says. -/
theorem Step.agrees (h : Step s op t r s') (hnow : Agrees s now) : Agrees s' (now.after op r) := by
  cases h with
  | refused hop _ => rwa [after_of_refused hop]
  | writes hop | writeFails hop => rwa [after_of_document hop]
  | asks hop => rwa [after_of_asks hop]
  | fetchFails | removes | reasoningFails => exact hnow
  | forgets => exact ⟨hnow.reasoning, nofun⟩
  | defines hquery => exact .of_current hnow.reasoning (bounds_of_ofPattern hquery)
  | unites hquery => exact .of_current hnow.reasoning (hnow.bounds _ hquery :)
  | limits hquery => exact .of_current hnow.reasoning ⟨rfl, (hnow.bounds _ hquery).2⟩
  | offsets hquery => exact .of_current hnow.reasoning ⟨(hnow.bounds _ hquery).1, rfl⟩
  | selects h => exact hnow.selects h
  | switches => exact ⟨hnow.reasoning, hnow.bounds⟩
  | reasons | clears => exact ⟨rfl, hnow.bounds⟩

/-- Step by step, the session and the account stay together. -/
theorem Runs.agrees {turns : List Turn} (h : Runs s turns s') (hnow : Agrees s now) :
    Agrees s' (turns.foldl (fun now turn => now.after turn.operation turn.outcome) now) := by
  induction h generalizing now with
  | nil => exact hnow
  | cons h rest ih => exact ih ((step_of_converses h).agrees hnow)

theorem Opens.agrees {config : Config} {codec : Codec} {libraries : Libraries}
    (h : Opens config codec libraries t (.ok s)) : Agrees s ⟨none, none, none⟩ := by
  have hopened (databases : List String) :
      Agrees (opened config codec libraries databases) ⟨none, none, none⟩ := ⟨rfl, nofun⟩
  cases h with
  | unselected databases _ => exact hopened databases
  | selected databases _ h => exact (hopened databases).selects h

/-! ## What is sent -/

/-- A query that a step sends is the current one. It is run, or its matches are removed. -/
theorem Step.sent_query {database text : String} {options : QueryOptions}
    {answer : (Call.query database text options).Answer} (h : Step s op t r s')
    (hsent : ⟨.query database text options, answer⟩ ∈ t) :
    ∃ selected query, s.current = some query ∧
      ((op.asks ∧ ∃ form, .query database text options = queryCall s selected query form) ∨
        op = .removeMatching ∧
          .query database text options = matchesCall s selected query) := by
  cases h with
  | writes _ _ _ hcall | writeFails _ _ _ hcall =>
    cases List.mem_singleton.mp hsent
    exact hcall.elim
  | asks hop _ hquery form =>
    have hcall := congrArg AnsweredCall.call (List.mem_singleton.mp hsent)
    exact ⟨_, _, hquery, .inl ⟨hop, form, hcall⟩⟩
  | fetchFails _ hquery =>
    have hcall := congrArg AnsweredCall.call (List.mem_singleton.mp hsent)
    exact ⟨_, _, hquery, .inr ⟨rfl, hcall⟩⟩
  | removes _ hquery =>
    obtain hfetch | hremove := List.mem_cons.mp hsent
    · exact ⟨_, _, hquery, .inr ⟨rfl, congrArg AnsweredCall.call hfetch⟩⟩
    · cases List.mem_singleton.mp hremove
  -- the calls of these have nothing to do with queries
  | selects h => cases h.manages _ hsent
  | switches _ _ h | reasons _ _ h | reasoningFails _ _ h =>
    cases SettingsChange.manages h _ hsent
  | _ => cases hsent

/-- A query that is run is sent with the refinements that are due to the turns before. One whose
matches are to be removed is sent with the profile of reasoning that is due, but without bounds. -/
theorem sent_with {config : Config} {codec : Codec} {libraries : Libraries} {opening : Transcript}
    {earlier : List Turn} {turn : Turn} {s : Session}
    (h : Reached config codec libraries opening (earlier ++ [turn]) s)
    {database text : String} {options : QueryOptions}
    {answer : (Call.query database text options).Answer}
    (hsent : ⟨.query database text options, answer⟩ ∈ turn.transcript) :
    options.reasoning = (refinements earlier).reasoning ∧
      (turn.operation.asks ∧ options.limit = (refinements earlier).limit ∧
          options.offset = (refinements earlier).offset ∨
        turn.operation = .removeMatching ∧ options.limit = none ∧ options.offset = none) := by
  obtain ⟨s₀, hopening, hruns⟩ := h
  obtain ⟨s₁, hearlier, hlast⟩ := runs_append_iff.mp hruns
  have hagrees : Agrees s₁ (refinements earlier) :=
    hearlier.agrees (opens_of_course hopening).agrees
  cases hlast with
  | cons hturn _ =>
    obtain ⟨selected, query, hquery, ⟨hop, form, hcall⟩ | ⟨hop, hcall⟩⟩ :=
      (step_of_converses hturn).sent_query hsent
    · cases hcall
      exact ⟨hagrees.reasoning, .inl ⟨hop, hagrees.bounds query hquery⟩⟩
    · cases hcall
      exact ⟨hagrees.reasoning, .inr ⟨hop, rfl, rfl⟩⟩

/-- The pattern of everything that has a name. -/
def named : Node :=
  [("name", .wildcard none)]

/-- The query for everything that has a name. -/
def namedQuery : Query :=
  .ofGroup ((Pattern.compileInto .lenient .empty named).run .empty).2

/-- Five of the statements are wanted at most. -/
def limitedTurns : List Turn :=
  [⟨.query named, [], .ok ()⟩, ⟨.limit 5, [], .ok ()⟩]

/-- Queries are to be answered under a profile of reasoning. -/
def reasonedTurn : Turn :=
  { operation := .setReasoning .rl
    transcript := [⟨.takeOffline "people", .ok ()⟩,
      ⟨.setDatabaseOptions "people" [.reasoning .rl], .ok ()⟩, ⟨.bringOnline "people", .ok ()⟩]
    outcome := .ok () }

/-- The options of a query for five statements under the profile. -/
def runOptions : QueryOptions :=
  { limit := some 5, offset := none, accept := none, describe := true, reasoning := some .rl }

/-- The query is run, to no avail. -/
def ranTurn : Turn :=
  { operation := .run
    transcript := [⟨.query "people" namedQuery.describeText runOptions, .error outage⟩]
    outcome := .error (.store outage) }

/-- The options of a query for all statements. -/
def removeOptions : QueryOptions :=
  { limit := none
    offset := none
    accept := some Vocabulary.rdfXmlMedia
    describe := true
    reasoning := none }

/-- The matches of the query are to be removed, to no avail. -/
def removedTurn : Turn :=
  { operation := .removeMatching
    transcript := [⟨.query "people" namedQuery.describeText removeOptions, .error outage⟩]
    outcome := .error (.store outage) }

theorem sent_with_five :
    ∃ s, Reached (configured (some "people") true) .empty .lenient
      [⟨.listDatabases, .ok ["people"]⟩]
        (limitedTurns ++ [reasonedTurn] ++ [ranTurn]) s ∧
      runOptions.limit = (refinements (limitedTurns ++ [reasonedTurn])).limit ∧
      runOptions.reasoning = (refinements (limitedTurns ++ [reasonedTurn])).reasoning := by
  have hreached : Reached (configured (some "people") true) .empty .lenient
      [⟨.listDatabases, .ok ["people"]⟩] (limitedTurns ++ [reasonedTurn] ++ [ranTurn])
      { amongPeople with
        reasoning := some .rl
        current := some { namedQuery with limit := some 5 } } :=
    ⟨_, .ask _ (.done _), .cons (.done _) (.cons (.done _)
      (.cons (.ask _ (.ask _ (.ask _ (.done _)))) (.cons (.ask _ (.done _)) (.nil _))))⟩
  obtain ⟨hreasoning, ⟨-, hlimit, -⟩ | ⟨hop, -⟩⟩ :=
    sent_with hreached (List.mem_singleton_self _)
  · exact ⟨_, hreached, hlimit, hreasoning⟩
  · cases hop

/-- It is not so that every query is sent with the refinements that are due. -/
theorem not_always_sent_with :
    ¬ ∀ (config : Config) (codec : Codec) (libraries : Libraries) (opening : Transcript)
        (earlier : List Turn) (turn : Turn) (s : Session) (database text : String)
        (options : QueryOptions) (answer : (Call.query database text options).Answer),
      Reached config codec libraries opening (earlier ++ [turn]) s →
      ⟨.query database text options, answer⟩ ∈ turn.transcript →
        options.limit = (refinements earlier).limit ∧
          options.offset = (refinements earlier).offset ∧
          options.reasoning = (refinements earlier).reasoning := by
  intro h
  have hreached : Reached (configured (some "people") true) .empty .lenient
      [⟨.listDatabases, .ok ["people"]⟩] (limitedTurns ++ [removedTurn])
      { amongPeople with current := some { namedQuery with limit := some 5 } } :=
    ⟨_, .ask _ (.done _), .cons (.done _) (.cons (.done _)
      (.cons (.ask _ (.done _)) (.nil _)))⟩
  obtain ⟨hlimit, -⟩ := h _ _ _ _ _ _ _ _ _ _ _ hreached (List.mem_singleton_self _)
  cases hlimit

end Session

end LinkedData
