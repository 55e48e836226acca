import LinkedData.Proofs.Query.History
import LinkedData.Proofs.Stateful

/-!
# What a computation does to a group

A computation on groups is put together from operations. `Performs` reads them off its code, in
the order in which they take place, also if the computation fails on the way: the group at the
end is the group at the beginning after this history (`Performs.group`).

A history makes variables: a node that is registered gets its own, and so does every filter and
every wildcard without a name (`History.minted`).
-/

namespace LinkedData

namespace Compiling

/-- Take the outcome as a result, even if it is a failure. -/
def attempt {α : Type} (x : Compiling α) : Compiling (Except Error α) :=
  ExceptT.lift x.run

end Compiling

open Compiling

/-- From the first group the computation does what the history says, and ends with the outcome
and the second group. -/
inductive Performs : {α : Type} → Compiling α → Group → Group.History → Except Error α →
    Group → Prop where
  /-- a result -/
  | pure {α : Type} (a : α) (g : Group) : Performs (pure a) g [] (.ok a) g
  /-- a failure -/
  | throw {α : Type} (e : Error) (g : Group) : Performs (throw e : Compiling α) g [] (.error e) g
  /-- first one computation, then another that depends on its result -/
  | bind {α β : Type} {x : Compiling α} {f : α → Compiling β} {g g' g'' : Group}
      {a : α} {r : Except Error β} {first second : Group.History}
      (hx : Performs x g first (.ok a) g') (hf : Performs (f a) g' second r g'') :
      Performs (x >>= f) g (first ++ second) r g''
  /-- a computation that fails, so that the other does not take place -/
  | fail {α β : Type} {x : Compiling α} {f : α → Compiling β} {g g' : Group} {e : Error}
      {history : Group.History} (hx : Performs x g history (.error e) g') :
      Performs (x >>= f) g history (.error e) g'
  /-- a computation whose outcome is the result -/
  | attempt {α : Type} {x : Compiling α} {g g' : Group} {r : Except Error α}
      {history : Group.History} (hx : Performs x g history r g') :
      Performs (attempt x) g history (.ok r) g'
  /-- an operation without a result -/
  | change (op : Group.Operation) (g : Group) :
      Performs (change op.apply) g [op] (.ok ()) (op.apply g)
  /-- the next number is taken -/
  | nextNodeId (g : Group) :
      Performs (step Group.nextNodeId) g [.nextNodeId] (.ok g.nodeCounter) g.nextNodeId.2
  /-- a node is registered -/
  | registerNode (id : Option String) (node : Nat) (inverse : Bool) (g : Group) :
      Performs (step (·.registerNode id node inverse)) g [.registerNode id node inverse]
        (.ok (g.registerNode id node inverse).1) (g.registerNode id node inverse).2
  /-- a variable is made for a filter -/
  | freshFilterVariable (node : Nat) (g : Group) :
      Performs (step (·.freshFilterVariable node)) g [.freshFilterVariable node]
        (.ok (g.freshFilterVariable node).1) (g.freshFilterVariable node).2
  /-- a variable is made for a wildcard -/
  | anonymousVariable (g : Group) :
      Performs (step Group.anonymousVariable) g [.anonymousVariable]
        (.ok g.anonymousVariable.1) g.anonymousVariable.2
  /-- a variable is recorded that the caller named -/
  | namedVariable (name : String) (g : Group) :
      Performs (step (·.namedVariable name)) g [.namedVariable name]
        (.ok (g.namedVariable name).1) (g.namedVariable name).2

namespace Performs

variable {α : Type} {x : Compiling α} {g g' : Group} {history : Group.History}
  {r : Except Error α}

/-- What is performed is what the computation does when it runs. -/
theorem run (h : Performs x g history r g') : x.run g = (r, g') := by
  induction h with
  | bind hx hf ihx ihf =>
    rw [Yields.run_bind, ihx]
    exact ihf
  | fail hx ihx => rw [Yields.run_bind, ihx]
  | @attempt α x g g' r history hx ihx =>
    change ((Except.ok (x.run g).1, (x.run g).2) : Except Error (Except Error α) × Group) = _
    rw [ihx]
  | _ => rfl

/-- The operations, one after the other, lead from the first group to the second. -/
theorem group (h : Performs x g history r g') : g' = g.run history := by
  induction h with
  | bind hx hf ihx ihf => rw [Group.run_append, ← ihx, ihf]
  | fail hx ihx | attempt hx ihx => exact ihx
  | _ => rfl

end Performs

/-! ## The variables that a history makes -/

namespace Group

/-- The variables that an operation makes. A node that is registered without an identifier gets
a variable for itself; every node gets one for a property and one for its value. -/
def Operation.minted (g : Group) : Operation → List String
  | .registerNode id node inverse =>
    let vars := (g.registerNode id node inverse).1
    (if id.isNone then [vars.subject] else []) ++ [vars.predicate, vars.object]
  | .freshFilterVariable node => [(g.freshFilterVariable node).1]
  | .anonymousVariable => [g.anonymousVariable.1]
  | _ => []

/-- The variables that a history makes, in order. -/
def History.minted (g : Group) : History → List String
  | [] => []
  | op :: rest => op.minted g ++ History.minted (op.apply g) rest

theorem History.minted_append (g : Group) (first second : History) :
    History.minted g (first ++ second) =
      History.minted g first ++ History.minted (g.run first) second := by
  induction first generalizing g with
  | nil => rfl
  | cons op rest ih =>
    rw [List.cons_append, minted, minted, ih, List.append_assoc]
    rfl

end Group

end LinkedData
