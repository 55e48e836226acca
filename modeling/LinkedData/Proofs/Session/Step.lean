import LinkedData.Proofs.Session.Converses

/-!
# Steps of a session

What a session can be asked to do is an `Operation`. `Step` says all that may come of one: what
is called and answered, whether there is an error, and what the session remembers afterwards.
It is read off the code once (`step_of_converses`); whatever is said of sessions below is said
of steps, and of one step after the other.
-/

namespace LinkedData

open Store

namespace Session

/-- What a session can be asked to do. -/
inductive Operation where
  /-- select a database, and make it if it is not known -/
  | selectDatabase (name : String)
  /-- store an object graph -/
  | store (value : Value) (allocator : IdAllocator)
  /-- remove the statements of an object graph -/
  | remove (value : Value) (allocator : IdAllocator)
  /-- remove what the current query matches -/
  | removeMatching
  /-- make a pattern the current query -/
  | query (pattern : Node)
  /-- let a pattern be an alternative to the current query -/
  | union (pattern : Node)
  /-- bound how many statements are returned -/
  | limit (count : UInt64)
  /-- pass over some statements -/
  | offset (count : UInt64)
  /-- run the current query in its describe form -/
  | run
  /-- run it and decode the nodes -/
  | all (unlink : Bool)
  /-- run it and take the first node -/
  | first (unlink : Bool)
  /-- run it in its select form -/
  | tuples
  /-- add schema definitions -/
  | define (statements : List Value)
  /-- drop schema definitions -/
  | retractDefinition (statements : List Value)
  /-- add integrity constraints -/
  | validate (statements : List Value)
  /-- drop integrity constraints -/
  | retractValidation (statements : List Value)
  /-- switch validation on or off -/
  | setValidations (enabled : Bool)
  /-- answer queries under a profile of reasoning -/
  | setReasoning (level : ReasoningLevel)
  /-- answer queries without reasoning -/
  | clearReasoning
  /-- upload a document of rules -/
  | uploadRules (document : String)

namespace Operation

/-- Do it. The result of an operation that has one is not used here, only whether there is
one. -/
def perform : Operation → Conversing Unit
  | .selectDatabase name => Session.selectDatabase name
  | .store value allocator => Session.store value allocator
  | .remove value allocator => Session.remove value allocator
  | .removeMatching => Session.removeMatching
  | .query pattern => Session.query pattern
  | .union pattern => Session.union pattern
  | .limit count => Session.limit count
  | .offset count => Session.offset count
  | .run => discard Session.run
  | .all unlink => discard (Session.all unlink)
  | .first unlink => discard (Session.first unlink)
  | .tuples => discard Session.tuples
  | .define statements => Session.define statements
  | .retractDefinition statements => Session.retractDefinition statements
  | .validate statements => Session.validate statements
  | .retractValidation statements => Session.retractValidation statements
  | .setValidations enabled => Session.setValidations enabled
  | .setReasoning level => Session.setReasoning level
  | .clearReasoning => Session.clearReasoning
  | .uploadRules document => Session.uploadRules document

/-- The document that the operation hands over to the store, if it is one that does so. It is
found out from the handlers of custom kinds. -/
def document? : Operation → Option (Codec → Except Error String)
  | .store value allocator | .remove value allocator =>
    some fun codec => Triple.documentOf codec false value allocator
  | .define statements | .retractDefinition statements | .validate statements
  | .retractValidation statements =>
    some fun codec => (Triple.ofStatements codec statements).map (Triple.document true)
  | .uploadRules document => some fun _ => .ok document
  | _ => none

/-- Does the operation put another query in the place of the current one? -/
def redefines : Operation → Bool
  | .query _ => true
  | _ => false

/-- Does the operation run the current query and read the response? -/
def asks : Operation → Bool
  | .run | .all _ | .first _ | .tuples => true
  | _ => false

/-- Does the operation refer to the current query? -/
def needsQuery : Operation → Bool
  | .union _ | .limit _ | .offset _ | .removeMatching => true
  | op => op.asks

/-- Does the operation refer to the selected database? -/
def needsDatabase : Operation → Bool
  | .removeMatching | .setValidations _ | .setReasoning _ => true
  | op => op.document?.isSome || op.asks

/-- The setting of the selected database that the operation changes, if it is one that does
so. -/
def setting? : Operation → Option DatabaseOption
  | .setValidations enabled => some (.validation enabled)
  | .setReasoning level => some (.reasoning level)
  | _ => none

theorem eq_setValidations_of_setting? {op : Operation} {enabled : Bool}
    (h : op.setting? = some (.validation enabled)) : op = .setValidations enabled := by
  cases op with
  | setValidations => cases h; rfl
  | _ => cases h

end Operation

end Session

/-- Does the call hand the document over to the database? -/
def Store.Call.handsOver (database document : String) : Call → Prop
  | .add d text _ _ | .remove d text _ _ | .addConstraints d text _ | .removeConstraints d text _
  | .uploadRules d text => d = database ∧ text = document
  | _ => False

/-- Does the call make a database, or is it a part of changing settings? -/
def Store.Call.manages : Call → Bool
  | .createDatabase _ _ | .setDatabaseOptions _ _ | .takeOffline _ | .bringOnline _ => true
  | _ => false

theorem Store.Call.handsOver.manages {database document : String} {call : Call}
    (h : call.handsOver database document) : call.manages = false := by
  cases call with
  | createDatabase | setDatabaseOptions | takeOffline | bringOnline => exact h.elim
  | _ => rfl

namespace Session

/-! ## What may come of an operation -/

/-- The call that makes a database. -/
def creation (name : String) : Call :=
  .createDatabase name [.schemaGraph (schemaGraph name)]

/-- What may come of changing the settings of a database. Each of the three calls may be the last
one. -/
inductive SettingsChange (database : String) (options : List DatabaseOption) :
    Transcript → Except Error Unit → Prop where
  /-- the database stays online -/
  | stays (failure : Failure) :
      SettingsChange database options [⟨.takeOffline database, .error failure⟩]
        (.error (.store failure))
  /-- the settings are not accepted -/
  | refused (failure : Failure) :
      SettingsChange database options
        [⟨.takeOffline database, .ok ()⟩,
          ⟨.setDatabaseOptions database options, .error failure⟩]
        (.error (.store failure))
  /-- the database does not come back -/
  | lost (failure : Failure) :
      SettingsChange database options
        [⟨.takeOffline database, .ok ()⟩, ⟨.setDatabaseOptions database options, .ok ()⟩,
          ⟨.bringOnline database, .error failure⟩]
        (.error (.store failure))
  /-- the database is back with its new settings -/
  | done :
      SettingsChange database options
        [⟨.takeOffline database, .ok ()⟩, ⟨.setDatabaseOptions database options, .ok ()⟩,
          ⟨.bringOnline database, .ok ()⟩]
        (.ok ())

/-- What may come of selecting a database. -/
inductive Selects (name : String) (s : Session) :
    Transcript → Except Error Unit → Session → Prop where
  /-- it is known -/
  | known (h : name ∈ s.databases) :
      Selects name s [] (.ok ()) { s with database := some name }
  /-- it is not known and cannot be made -/
  | refused (h : name ∉ s.databases) (failure : Failure) :
      Selects name s [⟨creation name, .error failure⟩] (.error (.store failure)) s
  /-- it is made, without validation -/
  | made (h : name ∉ s.databases) (hplain : s.validations = false) :
      Selects name s [⟨creation name, .ok ()⟩] (.ok ())
        { s with databases := s.databases ++ [name], database := some name }
  /-- it is made and gets validation -/
  | validated (h : name ∉ s.databases) (hvalidate : s.validations = true) {t : Transcript}
      (hchange : SettingsChange name [.validation true] t (.ok ())) :
      Selects name s (⟨creation name, .ok ()⟩ :: t) (.ok ())
        { s with databases := s.databases ++ [name], database := some name }
  /-- it is made and known from now on, but it is not selected, since it got no validation -/
  | unvalidated (h : name ∉ s.databases) (hvalidate : s.validations = true) {t : Transcript}
      {e : Error} (hchange : SettingsChange name [.validation true] t (.error e)) :
      Selects name s (⟨creation name, .ok ()⟩ :: t) (.error e)
        { s with databases := s.databases ++ [name] }

/-- The call that asks for the matches of a query in order to remove them. -/
def matchesCall (s : Session) (database : String) (query : Query) : Call :=
  .query database query.describeText
    { limit := none
      offset := none
      accept := some Vocabulary.rdfXmlMedia
      describe := true
      reasoning := s.reasoning }

/-- The call that runs a query in a form. -/
def queryCall (s : Session) (database : String) (query : Query) (form : QueryForm) : Call :=
  .query database (query.render form)
    { limit := query.limit
      offset := query.offset
      accept := none
      describe := form = .describe
      reasoning := s.reasoning }

/-- Why an operation may end before anything is called. -/
inductive Refused (s : Session) : Operation → Error → Prop where
  /-- no database is selected -/
  | noDatabase {op : Operation} (hop : op.needsDatabase) (h : s.database = none) :
      Refused s op noDatabase
  /-- there is no current query -/
  | noQuery {op : Operation} (hop : op.needsQuery) (h : s.current = none) :
      Refused s op .noActiveQuery
  /-- there is nothing to hand over -/
  | noDocument {op : Operation} {document : Codec → Except Error String}
      (hop : op.document? = some document) {e : Error} (h : document s.codec = .error e) :
      Refused s op e
  /-- the alternative does not compile -/
  | noSibling {pattern : Node} {e : Error} (h : s.compiled pattern = .error e) :
      Refused s (.union pattern) e

/-- What may come of an operation. -/
inductive Step : Session → Operation → Transcript → Except Error Unit → Session → Prop where
  /-- there is an error before anything is called -/
  | refused {s : Session} {op : Operation} (hop : op.redefines = false) {e : Error}
      (h : Refused s op e) : Step s op [] (.error e) s
  /-- a document is handed over -/
  | writes {s : Session} {op : Operation} {document : Codec → Except Error String}
      (hop : op.document? = some document) {database : String}
      (hdatabase : s.database = some database) {text : String}
      (htext : document s.codec = .ok text) {call : Call} (hcall : call.handsOver database text)
      (reply : call.Reply) : Step s op [⟨call, .ok reply⟩] (.ok ()) s
  /-- a document is handed over and not accepted -/
  | writeFails {s : Session} {op : Operation} {document : Codec → Except Error String}
      (hop : op.document? = some document) {database : String}
      (hdatabase : s.database = some database) {text : String}
      (htext : document s.codec = .ok text) {call : Call} (hcall : call.handsOver database text)
      (failure : Failure) (e : Error) : Step s op [⟨call, .error failure⟩] (.error e) s
  /-- the current query is run; what comes of it depends on the response -/
  | asks {s : Session} {op : Operation} (hop : op.asks) {database : String}
      (hdatabase : s.database = some database) {query : Query}
      (hquery : s.current = some query) (form : QueryForm)
      (answer : (queryCall s database query form).Answer) (r : Except Error Unit) :
      Step s op [⟨queryCall s database query form, answer⟩] r s
  /-- the matches to be removed are not found out -/
  | fetchFails {s : Session} {database : String} (hdatabase : s.database = some database)
      {query : Query} (hquery : s.current = some query) (failure : Failure) :
      Step s .removeMatching [⟨matchesCall s database query, .error failure⟩]
        (.error (.store failure)) s
  /-- the matches are handed back in order to be removed -/
  | removes {s : Session} {database : String} (hdatabase : s.database = some database)
      {query : Query} (hquery : s.current = some query) (matched : String)
      (answer : Except Failure Unit) :
      Step s .removeMatching
        [⟨matchesCall s database query, .ok matched⟩,
          ⟨.remove database matched none Vocabulary.rdfXmlMedia, answer⟩]
        (answer.mapError .store) s
  /-- a pattern that does not compile leaves no current query -/
  | forgets {s : Session} {pattern : Node} {e : Error}
      (h : s.compiled pattern = .error e) :
      Step s (.query pattern) [] (.error e) { s with current := none }
  /-- a pattern becomes the current query -/
  | defines {s : Session} {pattern : Node} {query : Query}
      (hquery : s.compiled pattern = .ok query) :
      Step s (.query pattern) [] (.ok ()) { s with current := some query }
  /-- the current query gets an alternative -/
  | unites {s : Session} {query : Query} (hquery : s.current = some query) {pattern : Node}
      {sibling : Query} (hsibling : s.compiled pattern = .ok sibling) :
      Step s (.union pattern) [] (.ok ()) { s with current := some (query.union sibling) }
  /-- the current query gets a bound -/
  | limits {s : Session} {query : Query} (hquery : s.current = some query) (count : UInt64) :
      Step s (.limit count) [] (.ok ())
        { s with current := some { query with limit := some count } }
  /-- the current query passes over some statements -/
  | offsets {s : Session} {query : Query} (hquery : s.current = some query) (count : UInt64) :
      Step s (.offset count) [] (.ok ())
        { s with current := some { query with offset := some count } }
  /-- a database is selected, or not -/
  | selects {s s' : Session} {name : String} {t : Transcript} {r : Except Error Unit}
      (h : Selects name s t r s') : Step s (.selectDatabase name) t r s'
  /-- validation is switched, for later databases whatever becomes of the selected one -/
  | switches {s : Session} {database : String} (hdatabase : s.database = some database)
      (enabled : Bool) {t : Transcript} {r : Except Error Unit}
      (h : SettingsChange database [.validation enabled] t r) :
      Step s (.setValidations enabled) t r { s with validations := enabled }
  /-- there is reasoning from now on -/
  | reasons {s : Session} {database : String} (hdatabase : s.database = some database)
      (level : ReasoningLevel) {t : Transcript}
      (h : SettingsChange database [.reasoning level] t (.ok ())) :
      Step s (.setReasoning level) t (.ok ()) { s with reasoning := some level }
  /-- reasoning stays as it is -/
  | reasoningFails {s : Session} {database : String} (hdatabase : s.database = some database)
      (level : ReasoningLevel) {t : Transcript} {e : Error}
      (h : SettingsChange database [.reasoning level] t (.error e)) :
      Step s (.setReasoning level) t (.error e) s
  /-- there is no reasoning from now on -/
  | clears {s : Session} :
      Step s .clearReasoning [] (.ok ()) { s with reasoning := none }

/-! ## What steps keep -/

theorem Selects.validations_eq {name : String} {s s' : Session} {t : Transcript}
    {r : Except Error Unit} (h : Selects name s t r s') : s'.validations = s.validations := by
  cases h <;> rfl

/-- Only switching validation changes whether later databases get it. -/
theorem Step.validations_eq {s s' : Session} {op : Operation} {t : Transcript}
    {r : Except Error Unit} (h : Step s op t r s') (hop : ∀ enabled, op ≠ .setValidations enabled) :
    s'.validations = s.validations := by
  cases h with
  | selects h => exact h.validations_eq
  | switches _ enabled _ => exact absurd rfl (hop enabled)
  | _ => rfl

/-- Validation is switched even if the settings are not changed, but not without a database. -/
theorem Step.setValidations {s s' : Session} {enabled : Bool} {t : Transcript}
    {r : Except Error Unit} (h : Step s (.setValidations enabled) t r s') :
    s.database = none ∧ s' = s ∨ s.database ≠ none ∧ s' = { s with validations := enabled } := by
  cases h with
  | refused _ h =>
    cases h with
    | noDatabase _ h => exact .inl ⟨h, rfl⟩
    | noQuery hop _ => cases hop
    | noDocument hop _ => cases hop
  | switches hdatabase _ _ => exact .inr ⟨by simp [hdatabase], rfl⟩
  | writes hop => cases hop
  | writeFails hop => cases hop
  | asks hop => cases hop

theorem SettingsChange.manages {database : String} {options : List DatabaseOption}
    {t : Transcript} {r : Except Error Unit} (h : SettingsChange database options t r) :
    ∀ c ∈ t, c.call.manages = true := by
  cases h <;> simp [Call.manages]

/-- Selecting a database calls nothing that has to do with what is in it. -/
theorem Selects.manages {name : String} {s s' : Session} {t : Transcript}
    {r : Except Error Unit} (h : Selects name s t r s') : ∀ c ∈ t, c.call.manages = true := by
  cases h with
  | known => exact List.forall_mem_nil _
  | refused | made => exact List.forall_mem_singleton.mpr rfl
  | validated _ _ hchange | unvalidated _ _ hchange =>
    exact List.forall_mem_cons.mpr ⟨rfl, SettingsChange.manages hchange⟩

/-- An operation selects a database, or changes a setting of the selected one, or leaves the
databases alone. -/
theorem Step.manages_cases {s s' : Session} {op : Operation} {t : Transcript}
    {r : Except Error Unit} (h : Step s op t r s') :
    (∃ name, op = .selectDatabase name ∧ Selects name s t r s') ∨
      s'.databases = s.databases ∧
        ((∃ database option, op.setting? = some option ∧
            SettingsChange database [option] t r) ∨
          ∀ c ∈ t, c.call.manages = false) := by
  have one {c : AnsweredCall} (hc : c.call.manages = false) : ∀ d ∈ [c], d.call.manages = false :=
    List.forall_mem_singleton.mpr hc
  cases h with
  | selects h => exact .inl ⟨_, rfl, h⟩
  | switches _ enabled h => exact .inr ⟨rfl, .inl ⟨_, _, rfl, h⟩⟩
  | reasons _ level h => exact .inr ⟨rfl, .inl ⟨_, _, rfl, h⟩⟩
  | reasoningFails _ level h => exact .inr ⟨rfl, .inl ⟨_, _, rfl, h⟩⟩
  | refused | forgets | defines | unites | limits | offsets | clears =>
    exact .inr ⟨rfl, .inr (List.forall_mem_nil _)⟩
  | writes _ _ _ hcall | writeFails _ _ _ hcall => exact .inr ⟨rfl, .inr (one hcall.manages)⟩
  | asks | fetchFails => exact .inr ⟨rfl, .inr (one rfl)⟩
  | removes => exact .inr ⟨rfl, .inr (List.forall_mem_cons.mpr ⟨rfl, one rfl⟩)⟩

/-! ## The steps of the code -/

variable {s s' : Session} {t : Transcript}

theorem settingsChange_of_converses {database : String} {options : List DatabaseOption}
    {r : Except Error Unit} (h : Converses (changeSettings database options) s t r s') :
    SettingsChange database options t r ∧ s' = s := by
  obtain ⟨_, _, rfl, hset⟩ | ⟨failure, rfl, rfl, rfl⟩ := Converses.callOr_bind_iff.mp h
  · obtain ⟨_, _, rfl, honline⟩ | ⟨failure, rfl, rfl, rfl⟩ := Converses.callOr_bind_iff.mp hset
    · obtain ⟨failure | _, rfl, rfl, rfl⟩ := Converses.callOr_iff.mp honline
      · exact ⟨.lost failure, rfl⟩
      · exact ⟨.done, rfl⟩
    · exact ⟨.refused failure, rfl⟩
  · exact ⟨.stays failure, rfl⟩

theorem selects_of_converses {name : String} {r : Except Error Unit}
    (h : Converses (selectDatabase name) s t r s') : Selects name s t r s' := by
  rw [selectDatabase, Converses.get_bind_iff] at h
  by_cases hknown : name ∈ s.databases
  · simp only [List.contains_eq_mem, hknown, decide_true, Bool.not_true, Bool.false_eq_true,
      if_false] at h
    obtain ⟨rfl, rfl, rfl⟩ := Converses.modify_iff.mp h
    exact .known hknown
  · simp only [List.contains_eq_mem, hknown, decide_false, Bool.not_false, if_true] at h
    -- the database is known from its making on, whatever becomes of its settings
    obtain ⟨_, rest, rfl, hrest⟩ | ⟨failure, rfl, rfl, rfl⟩ := Converses.callOr_bind_iff.mp h
    · rw [Converses.modify_bind_iff, Converses.get_bind_iff] at hrest
      by_cases hvalidate : s.validations = true
      · rw [if_pos hvalidate, Converses.bind_iff] at hrest
        obtain ⟨_, _, _, _, rfl, hchange, hselect⟩ | ⟨e, hchange, rfl⟩ := hrest
        · obtain ⟨hdone, rfl⟩ := settingsChange_of_converses hchange
          obtain ⟨rfl, rfl, rfl⟩ := Converses.modify_iff.mp hselect
          rw [List.append_nil]
          exact .validated hknown hvalidate hdone
        · obtain ⟨hfail, rfl⟩ := settingsChange_of_converses hchange
          exact .unvalidated hknown hvalidate hfail
      · rw [if_neg hvalidate] at hrest
        obtain ⟨rfl, rfl, rfl⟩ := Converses.modify_iff.mp hrest
        exact .made hknown (Bool.eq_false_iff.mpr hvalidate)
    · exact .refused hknown failure

theorem map_unit (r : Except Error Unit) : (r.map fun _ => ()) = r := by
  cases r <;> rfl

/-- A document that has been found out is handed over. -/
theorem step_of_callOr {op : Operation} {document : Codec → Except Error String}
    (hop : op.document? = some document) {database : String}
    (hdatabase : s.database = some database) {text : String}
    (htext : document s.codec = .ok text) {call : Call} {refuse : Failure → Error}
    {r : Except Error call.Reply} (h : Converses (Conversing.callOr refuse call) s t r s')
    (hcall : call.handsOver database text) :
    Step s op t (r.map fun _ => ()) s' := by
  obtain ⟨failure | reply, rfl, rfl, rfl⟩ := Converses.callOr_iff.mp h
  · exact .writeFails hop hdatabase htext hcall failure (refuse failure)
  · exact .writes hop hdatabase htext hcall reply

/-- What needs a database is refused without one. -/
theorem step_of_selected {op : Operation} (hkept : op.redefines = false)
    (hneeds : op.needsDatabase) {f : String → Conversing Unit} {r : Except Error Unit}
    (h : Converses (selected >>= f) s t r s')
    (hf : ∀ database, s.database = some database → Converses (f database) s t r s' →
      Step s op t r s') : Step s op t r s' := by
  obtain ⟨database, hdatabase, h⟩ | ⟨e, hdatabase, rfl, rfl, rfl⟩ := reads_selected.cases_bind h
  · exact hf database (selection_eq_ok_iff.mp hdatabase) h
  · obtain ⟨hnone, rfl⟩ := selection_eq_error_iff.mp hdatabase
    exact .refused hkept (.noDatabase hneeds hnone)

/-- What needs a query is refused without one. -/
theorem step_of_currentQuery {op : Operation} (hkept : op.redefines = false)
    (hneeds : op.needsQuery) {f : Query → Conversing Unit} {r : Except Error Unit}
    (h : Converses (currentQuery >>= f) s t r s')
    (hf : ∀ query, s.current = some query → Converses (f query) s t r s' → Step s op t r s') :
    Step s op t r s' := by
  obtain ⟨query, hquery, h⟩ | ⟨e, hquery, rfl, rfl, rfl⟩ := reads_currentQuery.cases_bind h
  · exact hf query (question_eq_ok_iff.mp hquery) h
  · obtain ⟨hnone, rfl⟩ := question_eq_error_iff.mp hquery
    exact .refused hkept (.noQuery hneeds hnone)

/-- A document is found out from the session before it is handed over. -/
theorem step_of_document {op : Operation} {text : Codec → Except Error String}
    (hop : op.document? = some text) (hkept : op.redefines = false) (hneeds : op.needsDatabase)
    {document : Conversing String} (hdocument : Reads document fun s => text s.codec)
    {f : String → String → Conversing Unit} {r : Except Error Unit}
    (h : Converses (do f (← selected) (← document)) s t r s')
    (hf : ∀ d document, s.database = some d → text s.codec = .ok document →
      Converses (f d document) s t r s' → Step s op t r s') : Step s op t r s' := by
  refine step_of_selected hkept hneeds h fun d hdatabase h => ?_
  obtain ⟨document, htext, h⟩ | ⟨e, htext, rfl, rfl, rfl⟩ := hdocument.cases_bind h
  · exact hf d document hdatabase htext h
  · exact .refused hkept (.noDocument hop htext)

/-- The current query is changed if there is one. -/
theorem step_of_refine {op : Operation} (hkept : op.redefines = false) (hneeds : op.needsQuery)
    {change : Query → Query} {r : Except Error Unit} (h : Converses (refine change) s t r s')
    (hchange : ∀ query, s.current = some query →
      Step s op [] (.ok ()) { s with current := some (change query) }) : Step s op t r s' := by
  refine step_of_currentQuery hkept hneeds h fun query hquery h => ?_
  obtain ⟨rfl, rfl, rfl⟩ := Converses.modify_iff.mp h
  exact hchange query hquery

/-- The operation runs the current query, unless there is none or no database is selected, and
leaves the session as it is. -/
def Asks {α : Type} (x : Conversing α) : Prop :=
  ∀ s t r s', Converses x s t r s' → s' = s ∧
    ((t = [] ∧ ∃ e, r = .error e ∧
        (s.database = none ∧ e = noDatabase ∨ s.current = none ∧ e = .noActiveQuery)) ∨
      ∃ database query form, s.database = some database ∧ s.current = some query ∧
        ∃ answer, t = [⟨queryCall s database query form, answer⟩])

/-- What is made of the response does not matter. -/
theorem Asks.bind {α β : Type} {x : Conversing α} (hx : Asks x) {f : α → Conversing β}
    {outcome : α → Session → Except Error β} (hf : ∀ a, Reads (f a) (outcome a)) :
    Asks (x >>= f) := by
  intro s t r s' h
  obtain ⟨a, first, second, s₁, rfl, hfirst, hsecond⟩ | ⟨e, hfail, rfl⟩ :=
    Converses.bind_iff.mp h
  · obtain ⟨rfl, ⟨-, e, he, -⟩ | hasked⟩ := hx _ _ _ _ hfirst
    · cases he
    · obtain ⟨rfl, -, rfl⟩ := (hf a).converses_iff.mp hsecond
      rw [List.append_nil]
      exact ⟨rfl, .inr hasked⟩
  · obtain ⟨rfl, ⟨ht, e', he, hwhy⟩ | hasked⟩ := hx _ _ _ _ hfail
    · cases he
      exact ⟨rfl, .inl ⟨ht, e, rfl, hwhy⟩⟩
    · exact ⟨rfl, .inr hasked⟩

/-- Run the current query in a form. -/
def ask (form : QueryForm) : Conversing Json := do
  let query ← currentQuery
  submit query (query.render form) (form = .describe)

theorem asks_ask (form : QueryForm) : Asks (ask form) := by
  intro s t r s' h
  obtain ⟨query, hquery, h⟩ | ⟨e, hquery, rfl, rfl, rfl⟩ := reads_currentQuery.cases_bind h
  · obtain ⟨database, hdatabase, h⟩ | ⟨e, hdatabase, rfl, rfl, rfl⟩ :=
      reads_selected.cases_bind h
    · have hselected := selection_eq_ok_iff.mp hdatabase
      have hcurrent := question_eq_ok_iff.mp hquery
      obtain ⟨body, rest, rfl, hresponse⟩ | ⟨failure, rfl, rfl, rfl⟩ :=
        Converses.callOr_bind_iff.mp (Converses.get_bind_iff.mp h)
      · cases hread : Json.read? body with
        | none =>
          rw [hread] at hresponse
          obtain ⟨rfl, -, rfl⟩ := Converses.throw_iff.mp hresponse
          exact ⟨rfl, .inr ⟨database, query, form, hselected, hcurrent, _, rfl⟩⟩
        | some response =>
          rw [hread] at hresponse
          obtain ⟨rfl, -, rfl⟩ := Converses.pure_iff.mp hresponse
          exact ⟨rfl, .inr ⟨database, query, form, hselected, hcurrent, _, rfl⟩⟩
      · exact ⟨rfl, .inr ⟨database, query, form, hselected, hcurrent, _, rfl⟩⟩
    · exact ⟨rfl, .inl ⟨rfl, e, rfl, .inl (selection_eq_error_iff.mp hdatabase)⟩⟩
  · exact ⟨rfl, .inl ⟨rfl, e, rfl, .inr (question_eq_error_iff.mp hquery)⟩⟩

theorem asks_run : Asks Session.run :=
  asks_ask .describe

theorem tuples_eq :
    tuples = ask .select >>= fun response =>
      (do Conversing.lift (Row.allOfJson (← getThe Session).codec response)) := by
  rw [ask, bind_assoc]
  rfl

theorem asks_tuples : Asks tuples :=
  tuples_eq ▸ (asks_ask .select).bind fun response =>
    Reads.lift fun s => Row.allOfJson s.codec response

theorem asks_all (unlink : Bool) : Asks (all unlink) :=
  asks_run.bind fun response =>
    Reads.lift fun s => ResultGraph.ofJson s.codec response unlink

theorem asks_first (unlink : Bool) : Asks (first unlink) :=
  (asks_all unlink).bind fun _ => Reads.pure _

theorem step_of_asks {op : Operation} (hop : op.asks) (hkept : op.redefines = false)
    (hdatabase : op.needsDatabase) (hquery : op.needsQuery) {α : Type} {x : Conversing α}
    (hx : Asks x) {r : Except Error Unit} (h : Converses (discard x) s t r s') :
    Step s op t r s' := by
  obtain ⟨r', hasked, rfl⟩ := Converses.discard_iff.mp h
  obtain ⟨rfl, ⟨rfl, e, rfl, ⟨hnone, rfl⟩ | ⟨hnone, rfl⟩⟩ |
    ⟨database, query, form, hselected, hcurrent, answer, rfl⟩⟩ := hx _ _ _ _ hasked
  · exact .refused hkept (.noDatabase hdatabase hnone)
  · exact .refused hkept (.noQuery hquery hnone)
  · exact .asks hop hselected hcurrent form answer _

/-- Whatever the store answers, what comes of an operation is one of the steps. -/
theorem step_of_converses {op : Operation} {r : Except Error Unit}
    (h : Converses op.perform s t r s') : Step s op t r s' := by
  cases op with
  | selectDatabase name => exact .selects (selects_of_converses h)
  | store value allocator | remove value allocator =>
    exact step_of_document rfl rfl rfl (reads_objectDocument value allocator) h
      fun _ _ hdatabase htext h => map_unit r ▸ step_of_callOr rfl hdatabase htext h ⟨rfl, rfl⟩
  | define statements | retractDefinition statements | validate statements
  | retractValidation statements =>
    exact step_of_document rfl rfl rfl (reads_schemaDocument statements) h
      fun _ _ hdatabase htext h => map_unit r ▸ step_of_callOr rfl hdatabase htext h ⟨rfl, rfl⟩
  | uploadRules document =>
    exact step_of_selected rfl rfl h fun database hdatabase h =>
      map_unit r ▸ step_of_callOr rfl hdatabase rfl h ⟨rfl, rfl⟩
  | run => exact step_of_asks rfl rfl rfl rfl asks_run h
  | all unlink => exact step_of_asks rfl rfl rfl rfl (asks_all unlink) h
  | first unlink => exact step_of_asks rfl rfl rfl rfl (asks_first unlink) h
  | tuples => exact step_of_asks rfl rfl rfl rfl asks_tuples h
  | removeMatching =>
    refine step_of_selected rfl rfl h fun database hdatabase h => ?_
    refine step_of_currentQuery rfl rfl h fun query hquery h => ?_
    obtain ⟨matched, rest, rfl, hremove⟩ | ⟨failure, rfl, rfl, rfl⟩ :=
      Converses.callOr_bind_iff.mp (Converses.get_bind_iff.mp h)
    · obtain ⟨answer, rfl, rfl, rfl⟩ := Converses.callOr_iff.mp hremove
      exact .removes hdatabase hquery matched answer
    · exact .fetchFails hdatabase hquery failure
  | query pattern =>
    obtain ⟨query, hquery, h⟩ | ⟨e, hquery, rfl, rfl, rfl⟩ :=
      (Reads.lift fun s => s.compiled pattern).cases_bind
        (Converses.modify_bind_iff.mp h)
    · obtain ⟨rfl, rfl, rfl⟩ := Converses.modify_iff.mp h
      exact .defines hquery
    · exact .forgets hquery
  | union pattern =>
    obtain ⟨sibling, hsibling, h⟩ | ⟨e, hsibling, rfl, rfl, rfl⟩ :=
      (Reads.lift fun s => s.compiled pattern).cases_bind h
    · exact step_of_refine rfl rfl h fun query hcurrent => .unites hcurrent hsibling
    · exact .refused rfl (.noSibling hsibling)
  | limit count =>
    exact step_of_refine rfl rfl h fun query hcurrent => .limits hcurrent count
  | offset count =>
    exact step_of_refine rfl rfl h fun query hcurrent => .offsets hcurrent count
  -- validation is noted down before the settings are changed, reasoning only afterwards
  | setValidations enabled =>
    refine step_of_selected rfl rfl h fun database hdatabase h => ?_
    obtain ⟨hchange, rfl⟩ := settingsChange_of_converses (Converses.modify_bind_iff.mp h)
    exact .switches hdatabase enabled hchange
  | setReasoning level =>
    refine step_of_selected rfl rfl h fun database hdatabase h => ?_
    obtain ⟨_, first, second, _, rfl, hchange, hset⟩ | ⟨e, hchange, rfl⟩ :=
      Converses.bind_iff.mp h
    · obtain ⟨hdone, rfl⟩ := settingsChange_of_converses hchange
      obtain ⟨rfl, rfl, rfl⟩ := Converses.modify_iff.mp hset
      rw [List.append_nil]
      exact .reasons hdatabase level hdone
    · obtain ⟨hfail, rfl⟩ := settingsChange_of_converses hchange
      exact .reasoningFails hdatabase level hfail
  | clearReasoning =>
    obtain ⟨rfl, rfl, rfl⟩ := Converses.modify_iff.mp h
    exact .clears

end Session

end LinkedData
