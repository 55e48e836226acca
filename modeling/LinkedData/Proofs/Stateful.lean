import LinkedData.Query.Compile
import LinkedData.Triple.Encode

/-!
# Runs of computations with a state

Encoding and compiling are computations that carry a state along and may fail. `Yields`
says that such a computation succeeds: from which state, with which result, and in which
state it ends. There is one equation for each way in which computations are put together,
so a run of a whole `do` block is taken apart, or put together, from the runs of its steps.
-/

namespace LinkedData

variable {σ α β : Type}

/-- Without a state a sequence succeeds when both parts do. -/
theorem bind_eq_ok_iff {x : Except Error α} {f : α → Except Error β} {b : β} :
    (x >>= f) = .ok b ↔ ∃ a, x = .ok a ∧ f a = .ok b := by
  cases x with
  | error e =>
    constructor
    · intro h
      cases h
    · rintro ⟨a, h, -⟩
      cases h
  | ok a =>
    constructor
    · intro h
      exact ⟨a, rfl, h⟩
    · rintro ⟨a, h, hf⟩
      cases h
      exact hf

/-- Something is made of two outcomes when there are both. -/
theorem both_eq_ok_iff {γ : Type} {x : Except Error α} {y : Except Error β} {f : α → β → γ}
    {c : γ} :
    (do return f (← x) (← y)) = Except.ok c ↔ ∃ a b, x = .ok a ∧ y = .ok b ∧ c = f a b := by
  constructor
  · intro h
    obtain ⟨a, ha, h⟩ := bind_eq_ok_iff.1 h
    obtain ⟨b, hb, h⟩ := bind_eq_ok_iff.1 h
    exact ⟨a, b, ha, hb, (Except.ok.inj h).symm⟩
  · rintro ⟨a, b, ha, hb, rfl⟩
    exact bind_eq_ok_iff.2 ⟨a, ha, bind_eq_ok_iff.2 ⟨b, hb, rfl⟩⟩

/-- What a computation without a state gives can be evaluated. -/
theorem exists_ok_of_any {x : Except Error α} {p : α → Bool} (h : x.toOption.any p = true) :
    ∃ a, x = .ok a ∧ p a = true := by
  cases x with
  | error e => cases h
  | ok a => exact ⟨a, rfl, h⟩

/-- From the first state the computation succeeds with the result, and ends in the second
state. -/
def Yields (x : ExceptT Error (StateM σ) α) (s : σ) (a : α) (s' : σ) : Prop :=
  x.run s = (.ok a, s')

namespace Yields

theorem run_bind (x : ExceptT Error (StateM σ) α) (f : α → ExceptT Error (StateM σ) β) (s : σ) :
    (x >>= f).run s =
      match x.run s with
      | (.ok a, s') => (f a).run s'
      | (.error e, s') => (.error e, s') := by
  change ExceptT.bindCont f (x.run s).1 (x.run s).2 = _
  rcases x.run s with ⟨_ | a, s'⟩ <;> rfl

/-- A computation whose outcome is settled succeeds as that does, and leaves the state as it is. -/
theorem iff_of_run_eq {x : ExceptT Error (StateM σ) α} {r : Except Error α} {a : α} {s s' : σ}
    (hx : ∀ s, x.run s = (r, s)) : Yields x s a s' ↔ r = .ok a ∧ s' = s := by
  rw [Yields, hx, Prod.mk.injEq, @eq_comm _ s]

@[simp] theorem pure_iff {a b : α} {s s' : σ} :
    Yields (pure a : ExceptT Error (StateM σ) α) s b s' ↔ b = a ∧ s' = s := by
  constructor
  · intro h
    cases h
    exact ⟨rfl, rfl⟩
  · rintro ⟨rfl, rfl⟩
    rfl

@[simp] theorem throw_iff {e : Error} {b : α} {s s' : σ} :
    Yields (throw e : ExceptT Error (StateM σ) α) s b s' ↔ False := by
  constructor
  · intro h
    cases h
  · exact False.elim

/-- A sequence succeeds when both parts do, the second from where the first ended. -/
theorem bind_iff {x : ExceptT Error (StateM σ) α} {f : α → ExceptT Error (StateM σ) β}
    {s s'' : σ} {b : β} :
    Yields (x >>= f) s b s'' ↔ ∃ a s', Yields x s a s' ∧ Yields (f a) s' b s'' := by
  unfold Yields
  rw [run_bind]
  constructor
  · intro h
    rcases hx : x.run s with ⟨e | a, s'⟩
    · rw [hx] at h
      cases h
    · rw [hx] at h
      exact ⟨a, s', rfl, h⟩
  · rintro ⟨a, s', hx, hf⟩
    rw [hx]
    exact hf

/-- A computation has at most one outcome. -/
theorem unique {x : ExceptT Error (StateM σ) α} {s s₁ s₂ : σ} {a₁ a₂ : α}
    (h₁ : Yields x s a₁ s₁) (h₂ : Yields x s a₂ s₂) : a₁ = a₂ ∧ s₁ = s₂ := by
  unfold Yields at h₁ h₂
  rw [h₁] at h₂
  cases h₂
  exact ⟨rfl, rfl⟩

/-- Whether a computation succeeds can be evaluated. -/
theorem of_toBool {x : ExceptT Error (StateM σ) Unit} {s : σ}
    (h : (x.run s).1.toBool = true) : Yields x s () (x.run s).2 := by
  rw [Yields]
  rcases hx : x.run s with ⟨e | u, s'⟩
  · rw [hx] at h
    cases h
  · rfl

/-- Whether a computation succeeds in a state with a property can be evaluated. -/
theorem exists_of_run {x : ExceptT Error (StateM σ) α} {s : σ} {p : σ → Prop} [DecidablePred p]
    (h : ((x.run s).1.toBool && p (x.run s).2) = true) : ∃ a s', Yields x s a s' ∧ p s' := by
  rcases hx : x.run s with ⟨e | a, s'⟩
  · rw [hx] at h
    cases h
  · rw [hx] at h
    exact ⟨a, s', hx, of_decide_eq_true h⟩

/-! ## Steps of encoding -/

@[simp] theorem minting_lift_iff {r : Except Error α} {a : α} {m m' : Mint} :
    Yields (Minting.lift r) m a m' ↔ r = .ok a ∧ m' = m := by
  refine iff_of_run_eq fun _ => ?_
  cases r with
  | error e => rfl
  | ok b => rfl

/-- A minted identifier is the next one, and is recorded behind the others. -/
theorem fresh_iff {m m' : Mint} {id : Reference} :
    Yields Minting.fresh m id m' ↔
      id = m.allocator.next.1 ∧ m' = ⟨m.allocator.next.2, m.minted ++ [id]⟩ := by
  have hrun : Minting.fresh.run m =
      (.ok m.allocator.next.1, ⟨m.allocator.next.2, m.minted ++ [m.allocator.next.1]⟩) := rfl
  rw [Yields, hrun, Prod.mk.injEq, Except.ok.injEq, eq_comm, @eq_comm _ m']
  constructor
  · rintro ⟨rfl, h⟩
    exact ⟨rfl, h⟩
  · rintro ⟨rfl, h⟩
    exact ⟨rfl, h⟩

/-! ## Steps of compiling -/

@[simp] theorem compiling_lift_iff {r : Except Error α} {a : α} {g g' : Group} :
    Yields (Compiling.lift r) g a g' ↔ r = .ok a ∧ g' = g := by
  refine iff_of_run_eq fun _ => ?_
  cases r with
  | error e => rfl
  | ok b => rfl

@[simp] theorem step_iff {f : Group → α × Group} {a : α} {g g' : Group} :
    Yields (Compiling.step f) g a g' ↔ a = (f g).1 ∧ g' = (f g).2 := by
  have hrun : (Compiling.step f).run g = (.ok (f g).1, (f g).2) := rfl
  rw [Yields, hrun, Prod.mk.injEq, Except.ok.injEq, eq_comm, @eq_comm _ g']

@[simp] theorem change_iff {f : Group → Group} {u : Unit} {g g' : Group} :
    Yields (Compiling.change f) g u g' ↔ g' = f g := by
  have hrun : (Compiling.change f).run g = (.ok u, f g) := rfl
  rw [Yields, hrun, Prod.mk.injEq, eq_self, true_and, eq_comm]

end Yields

/-- Encoding succeeds when the walk over the value does. -/
theorem Encoded.ofValue_eq_iff {codec : Codec} {value : Value} {allocator after : IdAllocator}
    {encoded : Encoded} :
    ofValue codec value allocator = (.ok encoded, after) ↔
      Yields (build codec value) ⟨allocator, []⟩ (encoded.triples, encoded.root)
        ⟨after, encoded.allocated⟩ := by
  rw [ofValue, Yields]
  rcases (build codec value).run ⟨allocator, []⟩ with ⟨_ | ⟨triples, root⟩, m⟩
  · constructor
    · intro h
      cases h
    · intro h
      cases h
  · constructor
    · intro h
      cases h
      rfl
    · intro h
      cases h
      rfl

end LinkedData
