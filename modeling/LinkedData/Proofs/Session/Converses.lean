import LinkedData.Proofs.Store.Course
import LinkedData.Session.Content
import LinkedData.Session.Query

/-!
# How an operation goes

`Converses` says how an operation of a session goes: from which session, with which calls and
answers, to which outcome and which session. It is asked of every course of the operation, so it
leaves open what the store answers.

There is one equation for each way in which operations are put together. Much of an operation
only looks at the session (`Reads`): it calls nothing, changes nothing, and its outcome can be
told from the session alone.
-/

namespace LinkedData

open Store

variable {α β : Type}

/-- From the first session the operation makes the calls of the transcript and gets its answers,
and ends with the outcome and the second session. -/
def Converses (x : Conversing α) (s : Session) (transcript : Transcript) (r : Except Error α)
    (s' : Session) : Prop :=
  Exchange.Course (x.run s) transcript (r, s')

/-- The operation only looks at the session, and has the outcome that the session gives. -/
def Reads (x : Conversing α) (outcome : Session → Except Error α) : Prop :=
  ∀ s, x.run s = .done (outcome s, s)

namespace Converses

variable {s s' s'' : Session} {t : Transcript}

theorem run_bind (x : Conversing α) (f : α → Conversing β) (s : Session) :
    (x >>= f).run s = x.run s >>= fun p =>
      match p.1 with
      | .ok a => (f a).run p.2
      | .error e => .done (.error e, p.2) := by
  change (x.run s >>= fun p => ExceptT.bindCont f p.1 p.2) = _
  congr
  funext ⟨r, s'⟩
  cases r <;> rfl

@[simp] theorem pure_iff {a : α} {r : Except Error α} :
    Converses (pure a) s t r s' ↔ t = [] ∧ r = .ok a ∧ s' = s := by
  change Exchange.Course (.done (.ok a, s)) t (r, s') ↔ _
  rw [Exchange.course_done_iff, Prod.mk.injEq]

@[simp] theorem throw_iff {e : Error} {r : Except Error α} :
    Converses (throw e) s t r s' ↔ t = [] ∧ r = .error e ∧ s' = s := by
  change Exchange.Course (.done (.error e, s)) t (r, s') ↔ _
  rw [Exchange.course_done_iff, Prod.mk.injEq]

/-- A sequence goes like its first part if that fails, and else like both parts, the second one
from where the first one ended. -/
theorem bind_iff {x : Conversing α} {f : α → Conversing β} {r : Except Error β} :
    Converses (x >>= f) s t r s'' ↔
      (∃ a first second s', t = first ++ second ∧ Converses x s first (.ok a) s' ∧
        Converses (f a) s' second r s'') ∨
      ∃ e, Converses x s t (.error e) s'' ∧ r = .error e := by
  rw [Converses, run_bind, Exchange.course_bind_iff]
  constructor
  · rintro ⟨⟨a | a, s'⟩, first, second, rfl, hx, hf⟩
    · obtain ⟨rfl, hr⟩ := Exchange.course_done_iff.mp hf
      obtain ⟨rfl, rfl⟩ := Prod.mk.inj hr
      rw [List.append_nil]
      exact .inr ⟨a, hx, rfl⟩
    · exact .inl ⟨a, first, second, s', rfl, hx, hf⟩
  · rintro (⟨a, first, second, s', rfl, hx, hf⟩ | ⟨e, hx, rfl⟩)
    · exact ⟨(.ok a, s'), first, second, rfl, hx, hf⟩
    · exact ⟨(.error e, s''), t, [], (List.append_nil t).symm, hx, .done _⟩

@[simp] theorem get_bind_iff {f : Session → Conversing β} {r : Except Error β} :
    Converses (getThe Session >>= f) s t r s' ↔ Converses (f s) s t r s' := by
  rw [Converses, run_bind]
  rfl

@[simp] theorem modify_iff {f : Session → Session} {r : Except Error Unit} :
    Converses (modifyThe Session f) s t r s' ↔ t = [] ∧ r = .ok () ∧ s' = f s := by
  change Exchange.Course (.done (.ok (), f s)) t (r, s') ↔ _
  rw [Exchange.course_done_iff, Prod.mk.injEq]

@[simp] theorem modify_bind_iff {f : Session → Session} {g : Unit → Conversing β}
    {r : Except Error β} :
    Converses (modifyThe Session f >>= g) s t r s' ↔ Converses (g ()) (f s) t r s' := by
  rw [Converses, run_bind]
  rfl

/-- A call leaves the session as it is, and the store's answer is the outcome. -/
theorem callOr_iff {refuse : Failure → Error} {call : Call} {r : Except Error call.Reply} :
    Converses (Conversing.callOr refuse call) s t r s' ↔
      ∃ answer : call.Answer, t = [⟨call, answer⟩] ∧ r = answer.mapError refuse ∧ s' = s := by
  have hrun : (Conversing.callOr refuse call).run s =
      .ask call fun answer => .done (answer.mapError refuse, s) := by
    change Exchange.ask call _ = _
    congr
    funext answer
    cases answer <;> rfl
  rw [Converses, hrun, Exchange.course_ask_iff]
  simp only [Exchange.course_done_iff, Prod.mk.injEq]
  constructor
  · rintro ⟨answer, _, rfl, rfl, hr⟩
    exact ⟨answer, rfl, hr⟩
  · rintro ⟨answer, rfl, hr⟩
    exact ⟨answer, [], rfl, rfl, hr⟩

/-- What comes after a call takes place only if the call does not fail. -/
theorem callOr_bind_iff {refuse : Failure → Error} {call : Call}
    {f : call.Reply → Conversing β} {r : Except Error β} :
    Converses (Conversing.callOr refuse call >>= f) s t r s' ↔
      (∃ reply rest, t = ⟨call, .ok reply⟩ :: rest ∧ Converses (f reply) s rest r s') ∨
      ∃ failure, t = [⟨call, .error failure⟩] ∧ r = .error (refuse failure) ∧ s' = s := by
  simp only [bind_iff, callOr_iff]
  constructor
  · rintro (⟨reply, _, rest, _, rfl, ⟨answer, rfl, hanswer, rfl⟩, hf⟩ |
      ⟨e, ⟨answer, rfl, hanswer, rfl⟩, rfl⟩)
    · cases answer with
      | error failure => cases hanswer
      | ok _ =>
        cases hanswer
        exact .inl ⟨_, rest, rfl, hf⟩
    · cases answer with
      | error failure =>
        cases hanswer
        exact .inr ⟨failure, rfl, rfl, rfl⟩
      | ok reply => cases hanswer
  · rintro (⟨reply, rest, rfl, hf⟩ | ⟨failure, rfl, rfl, rfl⟩)
    · exact .inl ⟨reply, [_], rest, s, rfl, ⟨.ok reply, rfl, rfl, rfl⟩, hf⟩
    · exact .inr ⟨refuse failure, ⟨.error failure, rfl, rfl, rfl⟩, rfl⟩

/-- An operation whose result is not used goes as it would otherwise. -/
theorem discard_iff {x : Conversing α} {r : Except Error Unit} :
    Converses (discard x) s t r s' ↔
      ∃ r', Converses x s t r' s' ∧ r = r'.map fun _ => () := by
  have hrun : (discard x).run s =
      x.run s >>= fun p => .done (p.1.map fun _ => (), p.2) := by
    change (x.run s >>= fun p => _) = _
    congr
    funext ⟨r, s'⟩
    cases r <;> rfl
  rw [Converses, hrun, Exchange.course_bind_iff]
  constructor
  · rintro ⟨⟨r', s''⟩, first, second, rfl, hx, hdone⟩
    obtain ⟨rfl, hr⟩ := Exchange.course_done_iff.mp hdone
    obtain ⟨rfl, rfl⟩ := Prod.mk.inj hr
    rw [List.append_nil]
    exact ⟨r', hx, rfl⟩
  · rintro ⟨r', hx, rfl⟩
    exact ⟨(r', s'), t, [], (List.append_nil t).symm, hx, .done _⟩

end Converses

/-! ## What only looks at the session -/

namespace Reads

theorem converses_iff {x : Conversing α} {outcome : Session → Except Error α} {s s' : Session}
    {t : Transcript} {r : Except Error α} (hx : Reads x outcome) :
    Converses x s t r s' ↔ t = [] ∧ r = outcome s ∧ s' = s := by
  rw [Converses, hx s, Exchange.course_done_iff, Prod.mk.injEq]

/-- What comes after a look at the session takes place, in the same session, if the look gives
something. -/
theorem cases_bind {x : Conversing α} {outcome : Session → Except Error α}
    {f : α → Conversing β} {s s' : Session} {t : Transcript} {r : Except Error β}
    (hx : Reads x outcome) (h : Converses (x >>= f) s t r s') :
    (∃ a, outcome s = .ok a ∧ Converses (f a) s t r s') ∨
      ∃ e, outcome s = .error e ∧ t = [] ∧ r = .error e ∧ s' = s := by
  rw [Converses, Converses.run_bind, hx s, Exchange.done_bind] at h
  cases houtcome : outcome s with
  | ok a =>
    rw [houtcome] at h
    exact .inl ⟨a, rfl, h⟩
  | error e =>
    rw [houtcome] at h
    obtain ⟨rfl, hr⟩ := Exchange.course_done_iff.mp h
    obtain ⟨rfl, rfl⟩ := Prod.mk.inj hr
    exact .inr ⟨e, rfl, rfl, rfl, rfl⟩

theorem pure (a : α) : Reads (Pure.pure a) fun _ => .ok a :=
  fun _ => rfl

theorem lift (outcome : Session → Except Error α) :
    Reads (do Conversing.lift (outcome (← getThe Session))) outcome := by
  intro s
  rw [Converses.run_bind]
  change (Conversing.lift (outcome s)).run s = _
  cases outcome s <;> rfl

theorem map {x : Conversing α} {outcome : Session → Except Error α} (hx : Reads x outcome)
    (f : α → β) : Reads (do return f (← x)) fun s => (outcome s).map f := by
  intro s
  rw [Converses.run_bind, hx s, Exchange.done_bind]
  change _ = Exchange.done ((outcome s).map f, s)
  cases outcome s <;> rfl

end Reads

namespace Session

/-- The selected database, or the error that none is selected. -/
def selection (s : Session) : Except Error String :=
  match s.database with
  | some database => .ok database
  | none => .error noDatabase

/-- The current query, or the error that there is none. -/
def question (s : Session) : Except Error Query :=
  match s.current with
  | some query => .ok query
  | none => .error .noActiveQuery

theorem selection_eq_ok_iff {s : Session} {database : String} :
    s.selection = .ok database ↔ s.database = some database := by
  rw [selection]
  cases s.database <;> simp

theorem selection_eq_error_iff {s : Session} {e : Error} :
    s.selection = .error e ↔ s.database = none ∧ e = noDatabase := by
  rw [selection]
  cases s.database <;> simp [eq_comm]

theorem question_eq_ok_iff {s : Session} {query : Query} :
    s.question = .ok query ↔ s.current = some query := by
  rw [question]
  cases s.current <;> simp

theorem question_eq_error_iff {s : Session} {e : Error} :
    s.question = .error e ↔ s.current = none ∧ e = .noActiveQuery := by
  rw [question]
  cases s.current <;> simp [eq_comm]

theorem reads_selected : Reads selected selection := by
  intro s
  rw [selected, Converses.run_bind]
  change (match s.database with
    | some database => pure database
    | none => throw noDatabase : Conversing String).run s = .done (s.selection, s)
  rw [selection]
  cases s.database <;> rfl

theorem reads_currentQuery : Reads currentQuery question := by
  intro s
  rw [currentQuery, Converses.run_bind]
  change (match s.current with
    | some query => pure query
    | none => throw .noActiveQuery : Conversing Query).run s = .done (s.question, s)
  rw [question]
  cases s.current <;> rfl

theorem reads_objectDocument (value : Value) (allocator : IdAllocator) :
    Reads (objectDocument value allocator)
      fun s => Triple.documentOf s.codec false value allocator :=
  Reads.lift fun s => Triple.documentOf s.codec false value allocator

theorem reads_schemaDocument (statements : List Value) :
    Reads (schemaDocument statements)
      fun s => (Triple.ofStatements s.codec statements).map (Triple.document true) :=
  (Reads.lift fun s => Triple.ofStatements s.codec statements).map (Triple.document true)

end Session

end LinkedData
