import LinkedData.Value.Basic

/-!
# Values that equal themselves

Equality of values is no identity: what is not a number differs from itself, and in a node that
has a key twice the second property is compared with the first. Values without such things
(`Value.Proper`) equal themselves.
-/

namespace LinkedData

theorem Binary64.equals_self {x : Binary64} (h : x.isFinite = true) :
    x.equals x = true := by
  have hnan : x.isNaN = false := by
    simp only [Binary64.isFinite, Binary64.isNaN, decide_eq_true_eq, decide_eq_false_iff_not] at h ⊢
    omega
  simp [Binary64.equals, hnan]

namespace Value

theorem entriesWithin_iff {entries others : List (String × Value)} :
    entriesWithin entries others = true ↔
      ∀ entry ∈ entries, ∃ other, Fields.get? entry.1 others = some other ∧
        entry.2.equals other = true := by
  induction entries with
  | nil => exact ⟨fun _ entry hentry => absurd hentry List.not_mem_nil, fun _ => rfl⟩
  | cons entry rest ih =>
    obtain ⟨key, value⟩ := entry
    rw [entriesWithin, Bool.and_eq_true, List.forall_mem_cons, ih]
    refine and_congr_left fun _ => ?_
    rcases Fields.get? key others with _ | other
    · exact ⟨fun h => absurd h Bool.false_ne_true, fun ⟨_, h, _⟩ => nomatch h⟩
    · exact ⟨fun h => ⟨other, rfl, h⟩, fun ⟨_, h, heq⟩ => Option.some.inj h ▸ heq⟩

mutual

/-- All numbers in the value are finite, and no node in it has a key twice. -/
def Proper : Value → Prop
  | .float x => x.isFinite = true
  | .node entries => Fields.Distinct entries ∧ ProperEntries entries
  | .list items => ProperItems items
  | _ => True

/-- All elements are proper. -/
def ProperItems : List Value → Prop
  | [] => True
  | item :: rest => item.Proper ∧ ProperItems rest

/-- All properties are proper. -/
def ProperEntries : List (String × Value) → Prop
  | [] => True
  | (_, value) :: rest => value.Proper ∧ ProperEntries rest

end

mutual

theorem Proper.equals_self : ∀ {v : Value}, v.Proper → v.equals v = true
  | .float x, h => by
    rw [Proper] at h
    exact Binary64.equals_self h
  | .node entries, h => by
    rw [Proper] at h
    rw [equals, beq_self_eq_true, Bool.true_and, entriesWithin_iff]
    intro entry hentry
    exact ⟨entry.2, h.1.get?_of_mem hentry, ProperEntries.equals_self h.2 entry hentry⟩
  | .list items, h => by
    rw [Proper] at h
    rw [equals]
    exact ProperItems.equals_self h
  | .timestamp t, _ => t.sameInstant_self
  | .custom kind payload, _ => by
    simp [equals]
  | .null, _ => rfl
  | .boolean _, _ | .integer _, _ | .string _, _ | .reference _, _ | .term _, _ | .iri _, _
  | .wildcard _, _ => by
    rw [equals]
    exact beq_self_eq_true _

theorem ProperItems.equals_self : ∀ {items : List Value}, ProperItems items →
    itemsEqual items items = true
  | [], _ => rfl
  | item :: rest, h => by
    rw [ProperItems] at h
    rw [itemsEqual, Proper.equals_self h.1, ProperItems.equals_self h.2]
    rfl

theorem ProperEntries.equals_self : ∀ {entries : List (String × Value)}, ProperEntries entries →
    ∀ entry ∈ entries, entry.2.equals entry.2 = true
  | [], _ => nofun
  | (key, value) :: rest, h => by
    rw [ProperEntries] at h
    rw [List.forall_mem_cons]
    exact ⟨Proper.equals_self h.1, ProperEntries.equals_self h.2⟩

end

end Value

end LinkedData
