import LinkedData.Proofs.Query.Performed
import LinkedData.Proofs.Query.Trail
import LinkedData.Proofs.Text.Digits
import Mathlib.Data.List.Nodup
import Mathlib.Logic.Function.Basic
import Mathlib.Tactic.Tauto

/-!
# Minted variables

Compiling makes variables for nodes, for filters, and for wildcards without a name. Nodes and
wildcards are numbered with one count, and the filters of each node with a count of their own
(`Supply`). A variable is written with the letter of its family and with its numbers
(`Variable.token`), and no two variables are written alike (`Variable.token_injective`).

Which variables a pattern gets is told by a walk over the pattern alone (`Pattern.minted`).
-/

namespace LinkedData

/-- The variables that compiling makes. -/
inductive Variable where
  /-- stands for a node -/
  | subject (node : Nat)
  /-- stands for a property of a node -/
  | predicate (node : Nat)
  /-- stands for the value of that property -/
  | object (node : Nat)
  /-- stands for a wildcard without a name -/
  | wildcard (number : Nat)
  /-- stands for what a filter of a node is about -/
  | filter (node number : Nat)
  deriving DecidableEq

namespace Variable

/-- How the variable is written. -/
def token : Variable → String
  | .subject node => Group.subjectVariable node
  | .predicate node => Group.predicateVariable node
  | .object node => Group.objectVariable node
  | .wildcard number => Group.wildcardVariable number
  | .filter node number => Group.filterVariable node number

/-- The letter of its family. -/
def letter : Variable → Char
  | .subject _ => 'S'
  | .predicate _ => 'P'
  | .object _ => 'O'
  | .wildcard _ => 'X'
  | .filter _ _ => 'F'

/-- What is written behind the letter. -/
def digits : Variable → List Char
  | .subject number | .predicate number | .object number | .wildcard number =>
    Nat.toDigits 10 number
  | .filter node number => Nat.toDigits 10 node ++ '_' :: Nat.toDigits 10 number

theorem toList_token (v : Variable) : v.token.toList = '?' :: v.letter :: '_' :: v.digits := by
  cases v <;>
    simp [token, letter, digits, Group.subjectVariable, Group.predicateVariable,
      Group.objectVariable, Group.wildcardVariable, Group.filterVariable]

theorem underscore_notMem_toDigits (n : Nat) : '_' ∉ Nat.toDigits 10 n := by
  intro h
  exact absurd (Text.isDigit_toDigits h) (by decide)

/-- No two variables are written alike. -/
theorem token_injective : Function.Injective token := by
  intro v w h
  have hlist := congrArg String.toList h
  simp only [toList_token, List.cons.injEq] at hlist
  obtain ⟨-, hletter, -, hdigits⟩ := hlist
  -- the letter tells the family, and the digits the numbers
  cases v <;> cases w <;> simp [letter] at hletter
  case filter.filter node number node' number' =>
    -- the numbers are separated by the first underscore behind the letter
    obtain ⟨hnode, -, hnumber⟩ := (List.append_cons_inj_of_notMem
      (underscore_notMem_toDigits node) (underscore_notMem_toDigits number)).1 hdigits
    rw [Text.toDigits_injective hnode, Text.toDigits_injective hnumber]
  all_goals rw [Text.toDigits_injective hdigits]

/-- The variables of a node: one that stands for the node itself only if it has no identifier. -/
def ofNode (identified : Bool) (node : Nat) : List Variable :=
  (if identified then [] else [.subject node]) ++ [.predicate node, .object node]

end Variable

/-! ## Supplies -/

/-- How far the numbers are used up. -/
structure Supply where
  /-- the next number for a node or a wildcard -/
  next : Nat
  /-- for each node, the number of its next filter -/
  filters : Nat → Nat

/-- The supply of a group. -/
def Group.supply (g : Group) : Supply where
  next := g.nodeCounter
  filters := fun node => (lookupNumber? node g.filterCounters).getD 0

/-- The numbers of the variable are used up. -/
def Variable.Used (s : Supply) : Variable → Prop
  | .subject number | .predicate number | .object number | .wildcard number => number < s.next
  | .filter node number => number < s.filters node

/-- The variables come out of the first supply, each of them once, and leave the second. -/
structure Supply.Gives (s : Supply) (vs : List Variable) (s' : Supply) : Prop where
  /-- no number is given back -/
  kept : ∀ v : Variable, v.Used s → v.Used s'
  /-- the numbers of what is made were not used before, and are used from now on -/
  made : ∀ v ∈ vs, ¬ v.Used s ∧ v.Used s'
  /-- nothing is made twice -/
  nodup : vs.Nodup

namespace Supply

variable {s s' s'' : Supply}

theorem Gives.refl (s : Supply) : s.Gives [] s :=
  ⟨fun _ h => h, nofun, List.nodup_nil⟩

/-- What is made later is not used up before, so it is none of what was made earlier. -/
theorem Gives.trans {first second : List Variable} (h : s.Gives first s')
    (h' : s'.Gives second s'') : s.Gives (first ++ second) s'' where
  kept := fun v hv => h'.kept v (h.kept v hv)
  made := by
    intro v hv
    rcases List.mem_append.1 hv with hv | hv
    · exact ⟨(h.made v hv).1, h'.kept v (h.made v hv).2⟩
    · exact ⟨fun hused => (h'.made v hv).1 (h.kept v hused), (h'.made v hv).2⟩
  nodup := by
    rw [List.nodup_append]
    refine ⟨h.nodup, h'.nodup, fun v hv w hw heq => ?_⟩
    subst heq
    exact (h'.made v hw).1 (h.made v hv).2

/-- The supply after a number for a node or a wildcard. -/
def taken (s : Supply) : Supply :=
  { s with next := s.next + 1 }

/-- The supply after a filter of a node. -/
def filtered (s : Supply) (node : Nat) : Supply :=
  { s with filters := Function.update s.filters node (s.filters node + 1) }

theorem used_taken {v : Variable} (h : v.Used s) : v.Used s.taken := by
  cases v with
  | filter node number => exact h
  | _ => exact Nat.lt_succ_of_lt h

theorem used_filtered {v : Variable} (h : v.Used s) (node : Nat) : v.Used (s.filtered node) := by
  cases v with
  | filter node' number =>
    have hlt : number < s.filters node' := h
    by_cases hnode : node' = node
    · subst hnode
      simp only [Variable.Used, filtered, Function.update_self]
      omega
    · simpa [Variable.Used, filtered, hnode] using hlt
  | _ => exact h

theorem gives_taken (s : Supply) : s.Gives [] s.taken :=
  ⟨fun _ => used_taken, nofun, List.nodup_nil⟩

theorem gives_wildcard (s : Supply) : s.Gives [.wildcard s.next] s.taken where
  kept := fun _ => used_taken
  made := by
    intro v hv
    obtain rfl := List.mem_singleton.1 hv
    exact ⟨Nat.lt_irrefl _, Nat.lt_succ_self _⟩
  nodup := List.pairwise_singleton _ _

/-- One number is enough for a node, because its variables are of different families. -/
theorem gives_ofNode (s : Supply) (identified : Bool) :
    s.Gives (Variable.ofNode identified s.next) s.taken where
  kept := fun _ => used_taken
  made := by
    intro v hv
    have hv : v = .subject s.next ∨ v = .predicate s.next ∨ v = .object s.next := by
      cases identified <;> simp [Variable.ofNode] at hv <;> tauto
    rcases hv with rfl | rfl | rfl <;> exact ⟨Nat.lt_irrefl _, Nat.lt_succ_self _⟩
  nodup := by cases identified <;> simp [Variable.ofNode]

theorem gives_filtered (s : Supply) (node : Nat) :
    s.Gives [.filter node (s.filters node)] (s.filtered node) where
  kept := fun _ h => used_filtered h node
  made := by
    intro v hv
    obtain rfl := List.mem_singleton.1 hv
    simp [Variable.Used, filtered]
  nodup := List.pairwise_singleton _ _

end Supply

/-! ## Taking variables from a supply -/

/-- Takes variables from a supply, and leaves the rest of it. -/
abbrev Taking := Supply → List Variable × Supply

namespace Taking

/-- Take nothing. -/
def nothing : Taking :=
  fun s => ([], s)

/-- Take the variable of a wildcard. -/
def wildcard : Taking :=
  fun s => ([.wildcard s.next], s.taken)

/-- Take the variable of a filter of a node. -/
def filter (node : Nat) : Taking :=
  fun s => ([.filter node (s.filters node)], s.filtered node)

/-- Take the variables of a node. -/
def node (identified : Bool) : Taking :=
  fun s => (Variable.ofNode identified s.next, s.taken)

/-- First take these, and then those, which may depend on the number that was the next one at
the beginning. -/
def andThen (first : Taking) (second : Nat → Taking) : Taking :=
  fun s =>
    let (made, s') := first s
    let (more, s'') := second s.next s'
    (made ++ more, s'')

theorem nothing_andThen (t : Taking) : (nothing.andThen fun _ => t) = t :=
  rfl

theorem andThen_nothing (t : Taking) : (t.andThen fun _ => nothing) = t := by
  funext s
  simp [andThen, nothing]

end Taking

open Taking

/-- The variables that an entry with the key gets, if its value gets those behind it. -/
def PatternKey.minted (behind : Taking) : PatternKey → Taking
  | .wildcard none => Taking.wildcard.andThen fun _ => behind
  | .wildcard (some _) | .optional | .inverse _ | .property _ => behind
  | .id | .operator _ => nothing

namespace Pattern

mutual

/-- The variables that a value gets behind an edge of the node with the number. -/
def minted (outer : Nat) : Value → Taking
  | .node entries =>
    if Filter.isFilter entries then filter outer
    else
      (node (identifierToken? (identifier? entries)).isSome).andThen fun inner =>
        mintedEntries inner entries
  | .list items => mintedItems outer items
  | .wildcard none => wildcard
  | _ => nothing

/-- The variables that several values get. -/
def mintedItems (outer : Nat) : List Value → Taking
  | [] => nothing
  | item :: rest => (minted outer item).andThen fun _ => mintedItems outer rest

/-- The variables that the entries of a node with the number get. -/
def mintedEntries (outer : Nat) : List (String × Value) → Taking
  | [] => nothing
  | (key, value) :: rest =>
    (match PatternKey.resolve key with
      | .ok kind => kind.minted (minted outer value)
      | .error _ => nothing).andThen fun _ => mintedEntries outer rest

end

theorem minted_scalar (outer : Nat) {v : Value} (h : v.isScalar = true) :
    minted outer v = nothing := by
  cases v with
  | node _ | list _ | wildcard _ => cases h
  | _ => rw [minted] <;> intros <;> contradiction

/-- The variables that several patterns get, one after the other. -/
def mintedEach : List Node → Taking
  | [] => nothing
  | pattern :: rest => (minted 0 (.node pattern)).andThen fun _ => mintedEach rest

/-- The variables that patterns get when they are compiled, one after the other, into a group
that was empty at first. -/
def variablesOf (patterns : List Node) : List Variable :=
  (mintedEach patterns ⟨0, fun _ => 0⟩).1

/-- Numbers are shared by nodes and wildcards, and filters are numbered for each node. -/
example :
    variablesOf [[("?", .wildcard none),
      ("age", .list [.node [("$gt", .integer 1)], .node [("$lt", .integer 9)]]),
      ("knows", .node [("@id", .string "alice")])]] =
    [.subject 0, .predicate 0, .object 0, .wildcard 1, .wildcard 2, .filter 0 0, .filter 0 1,
      .predicate 3, .object 3] := by
  decide +kernel

end Pattern

end LinkedData
