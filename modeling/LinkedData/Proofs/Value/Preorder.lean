import LinkedData.Value.Basic

/-!
# The nodes of a value

`Value.preorder` lists the nodes of a value, each before those nested in it, keys and list
elements in order. What stands under `@id` is the name of a node and not a part of it. A
node is *anonymous* if it has no `@id`; it has an *edge* if some other property of it holds
at least one thing.
-/

namespace LinkedData

namespace Value

mutual

/-- The nodes of a value, each before those nested in it. -/
def preorder : Value → List Node
  | .node entries => entries :: preorderEntries entries
  | .list items => preorderItems items
  | _ => []

/-- The nodes of several values. -/
def preorderItems : List Value → List Node
  | [] => []
  | item :: rest => item.preorder ++ preorderItems rest

/-- The nodes nested in the properties of a node. -/
def preorderEntries : List (String × Value) → List Node
  | [] => []
  | (key, value) :: rest =>
    if key = Vocabulary.idKey then preorderEntries rest
    else value.preorder ++ preorderEntries rest

end

end Value

/-- What identifies a node. -/
def identifier? (entries : Node) : Option Value :=
  Fields.get? Vocabulary.idKey entries

/-- Has the node no identifier? -/
def isAnonymous (entries : Node) : Bool :=
  (identifier? entries).isNone

/-- Some property besides the identifier holds at least one thing. -/
def HasEdge (entries : Node) : Prop :=
  ∃ entry ∈ entries, entry.1 ≠ Vocabulary.idKey ∧ entry.2 ≠ .list []

/-- The numbers of the anonymous nodes, if the first node has the given number. -/
def anonymousFrom : Nat → List Node → List Nat
  | _, [] => []
  | number, entries :: rest =>
    if isAnonymous entries then number :: anonymousFrom (number + 1) rest
    else anonymousFrom (number + 1) rest

theorem anonymousFrom_append (number : Nat) (ns ms : List Node) :
    anonymousFrom number (ns ++ ms) =
      anonymousFrom number ns ++ anonymousFrom (number + ns.length) ms := by
  induction ns generalizing number with
  | nil => rfl
  | cons entries ns ih =>
    have hlen : number + (entries :: ns).length = number + 1 + ns.length := by
      rw [List.length_cons]
      omega
    rw [List.cons_append, anonymousFrom, anonymousFrom, hlen, ih]
    split
    · rfl
    · rfl

theorem le_of_mem_anonymousFrom {number k : Nat} {ns : List Node}
    (h : k ∈ anonymousFrom number ns) : number ≤ k := by
  induction ns generalizing number with
  | nil => cases h
  | cons entries ns ih =>
    rw [anonymousFrom] at h
    split at h
    · rcases List.mem_cons.1 h with rfl | h
      · exact Nat.le_refl k
      · exact Nat.le_of_succ_le (ih h)
    · exact Nat.le_of_succ_le (ih h)

theorem nodup_anonymousFrom (number : Nat) (ns : List Node) : (anonymousFrom number ns).Nodup := by
  induction ns generalizing number with
  | nil => exact List.nodup_nil
  | cons entries ns ih =>
    rw [anonymousFrom]
    split
    · refine List.nodup_cons.2 ⟨fun h => ?_, ih (number + 1)⟩
      exact absurd (le_of_mem_anonymousFrom h) (by omega)
    · exact ih (number + 1)

end LinkedData
