import LinkedData.Proofs.Session.Step

/-!
# What ends before the store is called

An operation can be at fault by itself: no database is selected, there is no current query, or
what is to be stored or asked for cannot be written down. The store does not hear of such an
operation. It ends with an error, and the session stays as it was, except that a query which
does not compile leaves no current query.

Each operation looks for faults in an order of its own, and stops at the first one. So it is said
here that an operation ends with an error before the store is called exactly if it has a fault,
and that the error is one of its faults (`uncalled_iff_fault`).
-/

namespace LinkedData

open Store

namespace Session

/-- What is wrong with an operation by itself. -/
inductive Fault (s : Session) : Operation → Error → Prop where
  /-- the operation cannot begin -/
  | refused {op : Operation} {e : Error} (h : Refused s op e) : Fault s op e
  /-- what is to be asked for does not compile -/
  | noPattern {pattern : Node} {e : Error} (h : s.compiled pattern = .error e) :
      Fault s (.query pattern) e

namespace Operation

/-- The session that an operation leaves if it comes to nothing. -/
def leaves (op : Operation) (s : Session) : Session :=
  if op.redefines then { s with current := none } else s

/-- A document that is handed over has nothing to do with the current query. -/
theorem needsQuery_of_document? {op : Operation} {document : Codec → Except Error String}
    (h : op.document? = some document) : op.needsQuery = false := by
  cases op with
  | store | remove | define | retractDefinition | validate | retractValidation | uploadRules => rfl
  | _ => cases h

theorem needsQuery_of_asks {op : Operation} (h : op.asks) : op.needsQuery = true := by
  cases op with
  | run | all | first | tuples => rfl
  | _ => cases h

end Operation

/-- The store is not called, and there is an error. -/
def Uncalled (t : Transcript) (r : Except Error Unit) : Prop :=
  t = [] ∧ ∃ e, r = .error e

theorem uncalled_error (e : Error) : Uncalled [] (.error e) :=
  ⟨rfl, e, rfl⟩

variable {s s' : Session} {op : Operation} {t : Transcript} {r : Except Error Unit} {e : Error}

/-! ## Faults and steps -/

/-- Nothing is called for a database that is not selected. -/
theorem Step.uncalled_of_noDatabase (h : Step s op t r s') (hop : op.needsDatabase)
    (hnone : s.database = none) : Uncalled t r := by
  have absurd_of {database : String} (hdatabase : s.database = some database) : Uncalled t r := by
    rw [hnone] at hdatabase
    cases hdatabase
  cases h with
  | refused _ _ => exact uncalled_error _
  | writes _ hdatabase | writeFails _ hdatabase | asks _ hdatabase | fetchFails hdatabase
  | removes hdatabase | switches hdatabase | reasons hdatabase | reasoningFails hdatabase =>
    exact absurd_of hdatabase
  | _ => cases hop

/-- Nothing is called for a query that is not there. -/
theorem Step.uncalled_of_noQuery (h : Step s op t r s') (hop : op.needsQuery)
    (hnone : s.current = none) : Uncalled t r := by
  have absurd_of {query : Query} (hquery : s.current = some query) : Uncalled t r := by
    rw [hnone] at hquery
    cases hquery
  cases h with
  | refused _ _ => exact uncalled_error _
  | writes hdocument | writeFails hdocument =>
    rw [Operation.needsQuery_of_document? hdocument] at hop
    cases hop
  | asks _ _ hquery | fetchFails _ hquery | removes _ hquery | unites hquery | limits hquery
  | offsets hquery => exact absurd_of hquery
  | _ => cases hop

/-- Nothing is called without the document that is to be handed over. -/
theorem Step.uncalled_of_noDocument (h : Step s op t r s')
    {document : Codec → Except Error String} (hop : op.document? = some document)
    (herror : document s.codec = .error e) : Uncalled t r := by
  cases h with
  | refused _ _ => exact uncalled_error _
  | writes hop' _ htext | writeFails hop' _ htext =>
    cases hop.symm.trans hop'
    rw [herror] at htext
    cases htext
  | asks hasks =>
    have hneeds := Operation.needsQuery_of_asks hasks
    rw [Operation.needsQuery_of_document? hop] at hneeds
    cases hneeds
  | _ => cases hop

/-- Nothing is called while a pattern is compiled. -/
theorem Step.uncalled_of_noSibling {pattern : Node} (h : Step s (.union pattern) t r s')
    (herror : s.compiled pattern = .error e) : Uncalled t r := by
  cases h with
  | refused _ _ => exact uncalled_error _
  | unites _ hsibling => rw [herror] at hsibling; cases hsibling
  | writes hop | writeFails hop | asks hop => cases hop

theorem Step.uncalled_of_noPattern {pattern : Node} (h : Step s (.query pattern) t r s')
    (herror : s.compiled pattern = .error e) : Uncalled t r := by
  cases h with
  | forgets _ => exact uncalled_error _
  | defines hquery => rw [herror] at hquery; cases hquery
  | refused hop | writes hop | writeFails hop | asks hop => cases hop

/-- Whatever the fault is, the store does not hear of it. -/
theorem Step.uncalled_of_fault (h : Step s op t r s') (hfault : Fault s op e) : Uncalled t r := by
  cases hfault with
  | refused hrefused =>
    cases hrefused with
    | noDatabase hop hnone => exact h.uncalled_of_noDatabase hop hnone
    | noQuery hop hnone => exact h.uncalled_of_noQuery hop hnone
    | noDocument hop herror => exact h.uncalled_of_noDocument hop herror
    | noSibling herror => exact h.uncalled_of_noSibling herror
  | noPattern herror => exact h.uncalled_of_noPattern herror

/-- An error without a call is one of the faults, and the session is left as it was. -/
theorem Step.fault_of_uncalled (h : Step s op [] (.error e) s') :
    Fault s op e ∧ s' = op.leaves s := by
  cases h with
  | refused hop hrefused => exact ⟨.refused hrefused, by rw [Operation.leaves, hop]; rfl⟩
  | forgets herror => exact ⟨.noPattern herror, rfl⟩
  -- whatever else goes wrong, the store has been called before
  | selects h => cases h
  | switches _ _ h | reasoningFails _ _ h => cases h

/-! ## Operations that come to nothing -/

theorem converses_nil_iff {α : Type} {x : Conversing α} {r : Except Error α} :
    Converses x s [] r s' ↔ x.run s = .done (r, s') :=
  Exchange.course_nil_iff

/-- An operation ends with an error before the store is called exactly if it has a fault. The error
is then one of its faults, and the session is as it was before; but a query leaves no current
query. -/
theorem uncalled_iff_fault (s : Session) (op : Operation) :
    ((∃ e, op.perform.run s = .done (.error e, op.leaves s)) ↔ ∃ e, Fault s op e) ∧
      ∀ e s', op.perform.run s = .done (.error e, s') → Fault s op e ∧ s' = op.leaves s := by
  have hend {e : Error} {s' : Session} (h : op.perform.run s = .done (.error e, s')) :
      Fault s op e ∧ s' = op.leaves s :=
    (step_of_converses (converses_nil_iff.mpr h)).fault_of_uncalled
  refine ⟨⟨?_, ?_⟩, fun e s' => hend⟩
  · rintro ⟨e, h⟩
    exact ⟨e, (hend h).1⟩
  · rintro ⟨e₀, hfault⟩
    obtain ⟨t, ⟨r, s'⟩, hcourse⟩ := Exchange.exists_course (op.perform.run s)
    -- every course is without calls, so the operation is not an exchange at all
    obtain ⟨rfl, e, rfl⟩ := (step_of_converses hcourse).uncalled_of_fault hfault
    have hdone := converses_nil_iff.mp hcourse
    obtain ⟨-, rfl⟩ := hend hdone
    exact ⟨e, hdone⟩

end Session

end LinkedData
