import LinkedData.Proofs.Property
import LinkedData.Proofs.Value.Describable

/-!
# Encoding is put together from steps

The walk over a value looks for the subjects of its nodes, writes its keys and scalars, which
mints nothing, and puts all this together. So what holds of such steps, and of a sequence if it
holds of its parts (`Compositional`), holds of the whole walk as soon as it holds of the subjects.
This induction over the value is made once, for whatever is to be shown of each part of the walk.
-/

namespace LinkedData

/-- A property that computations have which do nothing or fail, and sequences of computations that
have it. -/
structure Compositional (P : ∀ α : Type, Minting α → Prop) : Prop where
  /-- nothing is done -/
  pure {α : Type} (a : α) : P α (Pure.pure a)
  /-- the computation fails -/
  throw {α : Type} (e : Error) : P α (throwThe Error e)
  /-- one computation comes after the other -/
  bind {α β : Type} {x : Minting α} {f : α → Minting β} (first : P α x)
    (second : ∀ a, P β (f a)) : P β (x >>= f)

variable {P : ∀ α : Type, Minting α → Prop} {codec : Codec}

theorem Compositional.lift (hP : Compositional P) {α : Type}
    (r : Except Error α) : P α (Minting.lift r) := by
  cases r with
  | error e => exact hP.throw e
  | ok a => exact hP.pure a

namespace Triple

mutual

theorem composed_encodeObject (hP : Compositional P) {key : String} : ∀ {v : Value},
    (∀ entries ∈ v.preorder, P String (subjectOf (identifier? entries))) →
      P _ (encodeObject codec key v)
  | .node entries, h => by
    rw [Value.preorder, List.forall_mem_cons, Value.preorderEntries_eq,
      List.forall_mem_flatMap] at h
    rw [encodeObject]
    exact hP.bind h.1 fun _ => hP.bind (composed_encodeEntries hP h.2) fun _ => hP.pure _
  | .list _, _ => hP.throw _
  | .null, _ | .boolean _, _ | .integer _, _ | .float _, _ | .string _, _ | .timestamp _, _
  | .reference _, _ | .term _, _ | .iri _, _ | .wildcard _, _ | .custom _ _, _ =>
    hP.bind (hP.lift _) fun _ => hP.pure _
termination_by v => (sizeOf v, 0)

theorem composed_encodeItems (hP : Compositional P) {subject predicate key : String} :
    ∀ {items : List Value},
      (∀ item ∈ items, ∀ entries ∈ item.preorder, P String (subjectOf (identifier? entries))) →
        P _ (encodeItems codec subject predicate key items)
  | [], _ => hP.pure _
  | item :: rest, h => by
    rw [List.forall_mem_cons] at h
    rw [encodeItems]
    exact hP.bind (composed_encodeObject hP h.1) fun _ =>
      hP.bind (composed_encodeItems hP h.2) fun _ => hP.pure _
termination_by items => (sizeOf items, 0)

theorem composed_encodeProperty (hP : Compositional P) {subject predicate key : String} :
    ∀ {v : Value}, (∀ entries ∈ v.preorder, P String (subjectOf (identifier? entries))) →
      P _ (encodeProperty codec subject predicate key v)
  | v, h => by
    rw [encodeProperty.eq_def]
    split
    · rw [Value.preorder, Value.preorderItems_eq, List.forall_mem_flatMap] at h
      exact composed_encodeItems hP h
    · exact hP.bind (composed_encodeObject hP h) fun _ => hP.pure _
termination_by v => (sizeOf v, 1)

theorem composed_encodeEntries (hP : Compositional P) {subject : String} :
    ∀ {entries : List (String × Value)},
      (∀ edge ∈ edges entries, ∀ below ∈ edge.2.preorder,
        P String (subjectOf (identifier? below))) →
        P _ (encodeEntries codec subject entries)
  | [], _ => hP.pure _
  | (key, value) :: rest, h => by
    by_cases hid : key = Vocabulary.idKey
    · rw [hid, edges_cons_id] at h
      rw [hid, encodeEntries_id]
      exact composed_encodeEntries hP h
    · rw [edges_cons hid, List.forall_mem_cons] at h
      rw [encodeEntries_cons codec subject hid]
      exact hP.bind (hP.lift _) fun _ => hP.bind (composed_encodeProperty hP h.1) fun _ =>
        hP.bind (composed_encodeEntries hP h.2) fun _ => hP.pure _
termination_by entries => (sizeOf entries, 0)

end

theorem composed_encodeNodes (hP : Compositional P) {items : List Value}
    (h : ∀ item ∈ items, ∀ entries ∈ item.preorder, P String (subjectOf (identifier? entries))) :
    P _ (encodeNodes codec items) := by
  fun_induction encodeNodes codec items with
  | case1 => exact hP.pure _
  | case2 entries rest ih =>
    rw [List.forall_mem_cons] at h
    exact hP.bind (composed_encodeObject hP h.1) fun _ => hP.bind (ih h.2) fun _ => hP.pure _
  | case3 => exact hP.throw _

end Triple

end LinkedData
