import LinkedData.Value.Basic

/-!
# The leaves of a value

What a value holds besides its structure: the scalars at any depth, and the keys of its nodes.
-/

namespace LinkedData.Value

mutual

/-- Everything in the value that is neither a node nor a list, at any depth and in order. -/
def leaves : Value → List Value
  | .node entries => leavesOfEntries entries
  | .list items => leavesOfItems items
  | leaf => [leaf]

/-- The leaves of the elements. -/
def leavesOfItems : List Value → List Value
  | [] => []
  | item :: rest => leaves item ++ leavesOfItems rest

/-- The leaves of the properties. -/
def leavesOfEntries : List (String × Value) → List Value
  | [] => []
  | (_, value) :: rest => leaves value ++ leavesOfEntries rest

end

mutual

/-- The keys of the nodes in the value, in order. -/
def keys : Value → List String
  | .node entries => keysOfEntries entries
  | .list items => keysOfItems items
  | _ => []

/-- The keys in the elements. -/
def keysOfItems : List Value → List String
  | [] => []
  | item :: rest => keys item ++ keysOfItems rest

/-- The keys of the properties, and those in their values. -/
def keysOfEntries : List (String × Value) → List String
  | [] => []
  | (key, value) :: rest => key :: (keys value ++ keysOfEntries rest)

end

theorem forall_mem_leavesOfItems {p : Value → Prop} {items : List Value} :
    (∀ leaf ∈ leavesOfItems items, p leaf) ↔ ∀ item ∈ items, ∀ leaf ∈ item.leaves, p leaf := by
  induction items with
  | nil => exact iff_of_true nofun nofun
  | cons item rest ih => rw [leavesOfItems, List.forall_mem_append, ih, List.forall_mem_cons]

theorem forall_mem_leavesOfEntries {p : Value → Prop} {entries : List (String × Value)} :
    (∀ leaf ∈ leavesOfEntries entries, p leaf) ↔
      ∀ entry ∈ entries, ∀ leaf ∈ entry.2.leaves, p leaf := by
  induction entries with
  | nil => exact iff_of_true nofun nofun
  | cons entry rest ih => rw [leavesOfEntries, List.forall_mem_append, ih, List.forall_mem_cons]

theorem leaves_subset_of_mem_entries {entries : List (String × Value)} {entry : String × Value}
    (h : entry ∈ entries) : entry.2.leaves ⊆ leavesOfEntries entries :=
  forall_mem_leavesOfEntries.1 (fun _ hleaf => hleaf) entry h

end LinkedData.Value
