import LinkedData.Store.Exchange

/-!
# Courses of exchanges

An exchange is the tree of all its courses. A *course* follows one path of this tree: the store
is called, answers, is called again, and so on until the exchange is done. What was called and
answered on the way is its transcript.

A statement about every course is a statement about every store: what an exchange does with a
particular store is a course (`course_run`).
-/

namespace LinkedData.Store

/-- A call of the store, and its answer. -/
structure AnsweredCall where
  /-- what was called -/
  call : Call
  /-- what the store answered -/
  answer : call.Answer

/-- What was called and answered, in order. -/
abbrev Transcript := List AnsweredCall

namespace Exchange

variable {α β σ : Type}

/-- The exchange makes the calls of the transcript, gets its answers, and ends with the
result. -/
inductive Course : Exchange α → Transcript → α → Prop where
  /-- nothing more is called -/
  | done (a : α) : Course (.done a) [] a
  /-- a call, whatever the answer, and the course from there on -/
  | ask {call : Call} {next : call.Answer → Exchange α} {rest : Transcript} {a : α}
      (answer : call.Answer) (h : Course (next answer) rest a) :
      Course (.ask call next) (⟨call, answer⟩ :: rest) a

@[simp] theorem course_done_iff {a b : α} {transcript : Transcript} :
    Course (.done a) transcript b ↔ transcript = [] ∧ b = a := by
  constructor
  · rintro ⟨⟩
    exact ⟨rfl, rfl⟩
  · rintro ⟨rfl, rfl⟩
    exact .done b

theorem course_ask_iff {call : Call} {next : call.Answer → Exchange α}
    {transcript : Transcript} {a : α} :
    Course (.ask call next) transcript a ↔
      ∃ answer rest, transcript = ⟨call, answer⟩ :: rest ∧ Course (next answer) rest a := by
  constructor
  · intro h
    cases h with
    | ask answer h => exact ⟨answer, _, rfl, h⟩
  · rintro ⟨answer, rest, rfl, h⟩
    exact .ask answer h

/-- Without a call there is nothing but the result. -/
theorem course_nil_iff {x : Exchange α} {a : α} : Course x [] a ↔ x = .done a := by
  cases x with
  | done b => simp [eq_comm]
  | ask call next =>
    rw [course_ask_iff]
    constructor
    · rintro ⟨_, _, ⟨⟩, -⟩
    · rintro ⟨⟩

/-- A call alone gives the answer to it. -/
@[simp] theorem course_call_iff {c : Call} {transcript : Transcript} {answer : c.Answer} :
    Course (call c) transcript answer ↔ transcript = [⟨c, answer⟩] := by
  rw [call, course_ask_iff]
  constructor
  · rintro ⟨other, rest, rfl, h⟩
    obtain ⟨rfl, rfl⟩ := course_done_iff.mp h
    rfl
  · rintro rfl
    exact ⟨answer, [], rfl, .done answer⟩

/-- One exchange after the other has the courses that are made of one of each. -/
theorem course_bind_iff {x : Exchange α} {f : α → Exchange β} {transcript : Transcript} {b : β} :
    Course (x >>= f) transcript b ↔
      ∃ a first second,
        transcript = first ++ second ∧ Course x first a ∧ Course (f a) second b := by
  induction x generalizing transcript with
  | done a =>
    rw [done_bind]
    constructor
    · intro h
      exact ⟨a, [], transcript, rfl, .done a, h⟩
    · rintro ⟨a', first, second, rfl, hx, hf⟩
      obtain ⟨rfl, rfl⟩ := course_done_iff.mp hx
      exact hf
  | ask call next ih =>
    simp only [ask_bind, course_ask_iff, ih]
    constructor
    · rintro ⟨answer, _, rfl, a, first, second, rfl, hx, hf⟩
      exact ⟨a, ⟨call, answer⟩ :: first, second, rfl, ⟨answer, first, rfl, hx⟩, hf⟩
    · rintro ⟨a, _, second, rfl, ⟨answer, first, rfl, hx⟩, hf⟩
      exact ⟨answer, first ++ second, rfl, a, first, second, rfl, hx, hf⟩

/-! ## Courses and stores -/

/-- What is called and answered with a particular store. -/
def transcript (behavior : Behavior σ) : Exchange α → σ → Transcript
  | .done _, _ => []
  | .ask call next, s =>
    let (answer, s) := behavior call s
    ⟨call, answer⟩ :: (next answer).transcript behavior s

/-- With every store an exchange takes a course. -/
theorem course_run (behavior : Behavior σ) (x : Exchange α) (s : σ) :
    Course x (x.transcript behavior s) (x.run behavior s).1 := by
  induction x generalizing s with
  | done a => exact .done a
  | ask call next ih => exact .ask _ (ih _ _)

/-- Whatever an exchange does, it comes to an end. -/
theorem exists_course (x : Exchange α) : ∃ transcript a, Course x transcript a :=
  ⟨_, _, course_run (fun _ s => (.error ⟨.other, "there is no store"⟩, s)) x ()⟩

end Exchange

end LinkedData.Store
