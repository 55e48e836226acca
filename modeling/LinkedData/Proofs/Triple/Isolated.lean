import LinkedData.Proofs.Triple.Composed
import LinkedData.Triple.Encoder

/-!
# One encoder for many values

An encoder mints from one stream of identifiers. Each part of a walk over a value takes some
identifiers from the front of the stream and keeps them in this order, also if it fails (`Draws`).
A call begins with nothing kept and keeps nothing if it succeeds. So what an encoder has kept from a
call that failed is never handed out, and a call gives what it would give on a new encoder that
starts where the stream stands (`Encoder.calls_isolated`).
-/

namespace LinkedData

/-! ## Taking identifiers from the stream -/

namespace IdAllocator

/-- The next identifiers, and the allocator after them. -/
def draw (a : IdAllocator) : Nat → List Reference × IdAllocator
  | 0 => ([], a)
  | count + 1 =>
    let (ids, later) := a.next.2.draw count
    (a.next.1 :: ids, later)

theorem draw_add (a : IdAllocator) (m n : Nat) :
    a.draw (m + n) = ((a.draw m).1 ++ ((a.draw m).2.draw n).1, ((a.draw m).2.draw n).2) := by
  induction m generalizing a with
  | zero => rw [Nat.zero_add, draw, List.nil_append]
  | succ m ih => rw [Nat.succ_add, draw, draw, ih, List.cons_append]

end IdAllocator

section

variable {α β : Type}

/-- Whatever comes of it, the computation takes some identifiers from the stream and keeps them, in
order, behind those already kept. -/
def Draws (x : Minting α) : Prop :=
  ∀ m : Mint, ∃ count,
    (x.run m).2 = ⟨(m.allocator.draw count).2, m.minted ++ (m.allocator.draw count).1⟩

theorem draws_of_unchanged {x : Minting α} (h : ∀ m, (x.run m).2 = m) : Draws x := by
  intro m
  refine ⟨0, ?_⟩
  rw [h, IdAllocator.draw, List.append_nil]

theorem draws_fresh : Draws Minting.fresh :=
  fun _ => ⟨1, rfl⟩

theorem Draws.bind {x : Minting α} {f : α → Minting β} (hx : Draws x) (hf : ∀ a, Draws (f a)) :
    Draws (x >>= f) := by
  intro m
  obtain ⟨count, hcount⟩ := hx m
  rw [Yields.run_bind]
  rcases hrun : x.run m with ⟨_ | a, m'⟩
  · -- the second part is not reached
    rw [hrun] at hcount
    exact ⟨count, hcount⟩
  · rw [hrun] at hcount
    obtain rfl := hcount
    obtain ⟨more, hmore⟩ := hf a _
    refine ⟨count + more, hmore.trans ?_⟩
    rw [IdAllocator.draw_add, List.append_assoc]

theorem draws : Compositional fun _ x => Draws x :=
  ⟨fun _ => draws_of_unchanged fun _ => rfl, fun _ => draws_of_unchanged fun _ => rfl, Draws.bind⟩

end

/-! ## Single calls -/

theorem Triple.draws_subjectOf (id : Option Value) : Draws (subjectOf id) := by
  fun_cases subjectOf id with
  | case1 | case2 => exact draws_fresh.bind fun _ => draws.pure _
  | case3 | case4 | case6 => exact draws.pure _
  | case5 | case7 => exact draws.throw _

namespace Encoded

theorem draws_build (codec : Codec) (value : Value) : Draws (build codec value) := by
  cases value with
  | node entries =>
    exact (Triple.composed_encodeObject draws fun _ _ => Triple.draws_subjectOf _).bind fun _ =>
      draws.pure _
  | list items =>
    rw [build]
    split
    · exact (Triple.composed_encodeNodes draws fun _ _ _ _ => Triple.draws_subjectOf _).bind
        fun _ => draws.pure _
    · exact (draws.lift _).bind fun _ => draws.pure _
  | _ => exact draws.throw _

/-- The allocator moves on by the identifiers that are handed out, if the value is encoded. -/
theorem ofValue_draws (codec : Codec) (value : Value) (allocator : IdAllocator) :
    ∃ count, (ofValue codec value allocator).2 = (allocator.draw count).2 ∧
      ∀ encoded, (ofValue codec value allocator).1 = .ok encoded →
        encoded.allocated = (allocator.draw count).1 := by
  obtain ⟨count, hcount⟩ := draws_build codec value ⟨allocator, []⟩
  rw [ofValue]
  rcases hrun : (build codec value).run ⟨allocator, []⟩ with ⟨_ | result, mint⟩
  · rw [hrun] at hcount
    obtain rfl := hcount
    refine ⟨count, rfl, fun encoded h => ?_⟩
    cases h
  · rw [hrun] at hcount
    obtain rfl := hcount
    refine ⟨count, rfl, fun encoded h => ?_⟩
    obtain rfl := Except.ok.inj h
    rfl

end Encoded

namespace Encoder

/-- With nothing kept, encoding a value gives what the value gives with this allocator. -/
theorem exists_run_encode (codec : Codec) (value : Value) (allocator : IdAllocator) :
    ∃ kept, (Minting.encode codec value).run ⟨allocator, []⟩ =
      ((Encoded.ofValue codec value allocator).1,
        ⟨(Encoded.ofValue codec value allocator).2, kept⟩) := by
  rw [Encoded.ofValue]
  cases value with
  | node entries =>
    rw [Minting.encode, Encoded.build, Yields.run_bind, Yields.run_bind]
    rcases (Triple.encodeNode codec entries).run ⟨allocator, []⟩ with ⟨_ | result, mint⟩
    · exact ⟨_, rfl⟩
    · exact ⟨_, rfl⟩
  | list items =>
    rw [Minting.encode, Encoded.build]
    split
    · rw [Yields.run_bind, Yields.run_bind]
      rcases (Triple.encodeNodes codec items).run ⟨allocator, []⟩ with ⟨_ | triples, mint⟩
      · exact ⟨_, rfl⟩
      · exact ⟨_, rfl⟩
    · -- nothing is handed out here, and nothing was minted
      rcases Triple.ofStatements codec items with _ | triples
      · exact ⟨_, rfl⟩
      · exact ⟨_, rfl⟩
  | _ => exact ⟨_, rfl⟩

/-- What comes of a call, and where its allocator stands then, depends on where it stood. -/
theorem encode_eq (encoder : Encoder) (value : Value) : ∃ kept, encoder.encode value =
    ((Encoded.ofValue encoder.codec value encoder.mint.allocator).1,
      ⟨encoder.codec, (Encoded.ofValue encoder.codec value encoder.mint.allocator).2, kept⟩) := by
  obtain ⟨kept, hrun⟩ := exists_run_encode encoder.codec value encoder.mint.allocator
  have hclear : Minting.clear.run encoder.mint = (.ok (), ⟨encoder.mint.allocator, []⟩) := rfl
  refine ⟨kept, ?_⟩
  rw [encode, Minting.call, Yields.run_bind, hclear]
  exact congrArg (fun result => (result.1, Encoder.mk encoder.codec result.2)) hrun

/-! ## Sequences of calls -/

/-- The identifiers handed out by a call. -/
def Call.allocated (call : Call) : List Reference :=
  match call.outcome with
  | .ok encoded => encoded.allocated
  | .error _ => []

/-- The call went as on a new encoder with the allocator that it found. If it succeeded, it handed
out the identifiers by which it moved that allocator on. -/
structure Call.Isolated (codec : Codec) (call : Call) : Prop where
  /-- a new encoder would have given the same -/
  outcome : call.outcome =
    ((withAllocator codec call.began.mint.allocator).encode call.value).1
  /-- what was taken from the stream is what is handed out -/
  minted : ∃ count, call.ended.mint.allocator = (call.began.mint.allocator.draw count).2 ∧
    ∀ encoded, call.outcome = .ok encoded →
      encoded.allocated = (call.began.mint.allocator.draw count).1

theorem calls_cons (encoder : Encoder) (value : Value) (rest : List Value) :
    encoder.calls (value :: rest) =
      ⟨encoder, value, (encoder.encode value).1, (encoder.encode value).2⟩ ::
        (encoder.encode value).2.calls rest :=
  rfl

theorem isolated_encode (encoder : Encoder) (value : Value) :
    Call.Isolated encoder.codec
      ⟨encoder, value, (encoder.encode value).1, (encoder.encode value).2⟩ := by
  obtain ⟨_, hencode⟩ := encode_eq encoder value
  obtain ⟨_, hfresh⟩ := encode_eq (withAllocator encoder.codec encoder.mint.allocator) value
  rw [hencode]
  refine ⟨?_, Encoded.ofValue_draws encoder.codec value encoder.mint.allocator⟩
  rw [hfresh]
  rfl

theorem codec_encode (encoder : Encoder) (value : Value) :
    (encoder.encode value).2.codec = encoder.codec :=
  rfl

/-- What a call hands out is a part of what it took from the stream. -/
theorem Call.Isolated.allocated_sublist {codec : Codec} {call : Call} (h : call.Isolated codec) :
    ∃ count, call.ended.mint.allocator = (call.began.mint.allocator.draw count).2 ∧
      call.allocated.Sublist (call.began.mint.allocator.draw count).1 := by
  obtain ⟨count, hended, hallocated⟩ := h.minted
  refine ⟨count, hended, ?_⟩
  rw [Call.allocated]
  split
  next encoded hencoded => rw [hallocated encoded hencoded]
  next => exact List.nil_sublist _

theorem allocated_sublist_draw (encoder : Encoder) (values : List Value) : ∃ count,
    ((encoder.calls values).flatMap Call.allocated).Sublist
      (encoder.mint.allocator.draw count).1 := by
  induction values generalizing encoder with
  | nil => exact ⟨0, .refl _⟩
  | cons value rest ih =>
    obtain ⟨count, hended, hfirst⟩ := (isolated_encode encoder value).allocated_sublist
    obtain ⟨more, hrest⟩ := ih (encoder.encode value).2
    refine ⟨count + more, ?_⟩
    rw [hended] at hrest
    rw [calls_cons, List.flatMap_cons, IdAllocator.draw_add]
    exact hfirst.append hrest

/-- **Calls on one encoder are isolated.** Every value gets its call, and whatever the encoder has
kept and whatever came of the calls before, each call gives what a new encoder with the same codec
would give whose allocator stands where the call found it. A call that succeeds hands out exactly
the identifiers that it minted. No identifier of the stream is handed out twice. -/
theorem calls_isolated (encoder : Encoder) (values : List Value) :
    (encoder.calls values).map Call.value = values ∧
      (∀ call ∈ encoder.calls values, call.Isolated encoder.codec) ∧
      ∃ count, ((encoder.calls values).flatMap Call.allocated).Sublist
        (encoder.mint.allocator.draw count).1 := by
  refine ⟨?_, ?_, allocated_sublist_draw encoder values⟩
  · induction values generalizing encoder with
    | nil => rfl
    | cons value rest ih => rw [calls_cons, List.map_cons, ih]
  · induction values generalizing encoder with
    | nil => exact List.forall_mem_nil _
    | cons value rest ih =>
      rw [calls_cons, List.forall_mem_cons]
      refine ⟨isolated_encode encoder value, ?_⟩
      rw [← codec_encode encoder value]
      exact ih _

/-- A node that holds another one and has a key that no stored node may have, a node, and a flat
statement. -/
def spoiledFirst : List Value :=
  [.node [("guest", .node [("name", .string "Bob")]), ("$name", .string "Ann")],
    .node [("name", .string "Cy")],
    .list [.reference ⟨"finn", by decide⟩, .term "name", .string "Finn"]]

/-- The two identifiers that the first call minted before it failed are kept, but the second call
hands out the third one alone. -/
theorem calls_isolated_spoiledFirst :
    ∃ failed named flat, (withAllocator .empty (.countingFrom 7)).calls spoiledFirst =
        [failed, named, flat] ∧
      (failed.outcome.toBool = false ∧ failed.ended.mint.minted.length = 2 ∧
        named.outcome.toBool = true ∧
        named.allocated = ((IdAllocator.countingFrom 7).draw 3).1.drop 2 ∧
        flat.outcome.toBool = true ∧ flat.allocated = []) ∧
      named.Isolated .empty ∧ flat.Isolated .empty := by
  obtain ⟨failed, named, flat, hcalls, houtcomes⟩ : ∃ failed named flat,
      (withAllocator .empty (.countingFrom 7)).calls spoiledFirst = [failed, named, flat] ∧
      failed.outcome.toBool = false ∧ failed.ended.mint.minted.length = 2 ∧
      named.outcome.toBool = true ∧
      named.allocated = ((IdAllocator.countingFrom 7).draw 3).1.drop 2 ∧
      flat.outcome.toBool = true ∧ flat.allocated = [] :=
    ⟨_, _, _, rfl, rfl, rfl, rfl, rfl, rfl, rfl⟩
  obtain ⟨-, hisolated, -⟩ := calls_isolated (withAllocator .empty (.countingFrom 7)) spoiledFirst
  rw [hcalls, List.forall_mem_cons, List.forall_mem_cons, List.forall_mem_singleton] at hisolated
  exact ⟨failed, named, flat, hcalls, houtcomes, hisolated.2⟩

end Encoder

end LinkedData
