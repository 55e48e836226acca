import LinkedData.Proofs.Query.Course
import Mathlib.Logic.Function.Basic

/-!
# Histories

A query comes about by operations, one after the other. What must be true of its clauses can be
told from this history alone, without the groups that the operations pass on: how many optional
blocks are open (`History.openBlocks`), what a number stands for (`Operation.subjects`), which
tokens are still to be replaced before the open block is sealed (`History.renamings`), and which
clauses each block holds (`History.blocks`).

The main statement is `Query.clauses_conserved`: no clause is lost or duplicated, all keep their
order and their place, and only demotions change them, while they are held back.
-/

namespace LinkedData

/-- Replace tokens, one after the other. -/
def Clause.renamed (renamings : List (String × String)) (c : Clause) : Clause :=
  renamings.foldl (fun c pair => c.substitute pair.1 pair.2) c

@[simp] theorem Clause.renamed_cons (old new : String) (rest : List (String × String))
    (c : Clause) : c.renamed ((old, new) :: rest) = (c.substitute old new).renamed rest :=
  rfl

theorem Clause.map_renamed_nil (clauses : List Clause) :
    clauses.map (Clause.renamed []) = clauses := by
  have hid : Clause.renamed [] = id := rfl
  rw [hid, List.map_id]

/-- A filter stays as it is. -/
theorem Clause.substitute_eq_filter {old new : String} {c : Clause} {f : BoundFilter} :
    c.substitute old new = .filter f ↔ c = .filter f := by
  cases c <;> simp [Clause.substitute]

namespace Group

/-- What can be done to a group. -/
inductive Operation where
  /-- take the next number -/
  | nextNodeId
  /-- register a node under its number -/
  | registerNode (id : Option String) (node : Nat) (inverse : Bool)
  /-- add clauses -/
  | append (clauses : List Clause)
  /-- open an optional block -/
  | enterOptional
  /-- close an optional block -/
  | exitOptional
  /-- make a node the continuation of its parent -/
  | demote (node : Nat) (parent : String)
  /-- make a variable for a filter of a node -/
  | freshFilterVariable (node : Nat)
  /-- make a variable whose binding nobody asks for -/
  | anonymousVariable
  /-- record a variable that the caller named -/
  | namedVariable (name : String)

/-- What is done to a group, in order. -/
abbrev History := List Operation

/-- The group after an operation. -/
def Operation.apply : Operation → Group → Group
  | .nextNodeId, g => g.nextNodeId.2
  | .registerNode id node inverse, g => (g.registerNode id node inverse).2
  | .append clauses, g => g.append clauses
  | .enterOptional, g => g.enterOptional
  | .exitOptional, g => g.exitOptional
  | .demote node parent, g => g.demote node parent
  | .freshFilterVariable node, g => (g.freshFilterVariable node).2
  | .anonymousVariable, g => g.anonymousVariable.2
  | .namedVariable name, g => (g.namedVariable name).2

/-- The group after a history. -/
def run (g : Group) : History → Group
  | [] => g
  | op :: rest => (op.apply g).run rest

theorem run_append (g : Group) (a b : History) : g.run (a ++ b) = (g.run a).run b := by
  induction a generalizing g with
  | nil => rfl
  | cons op rest ih => exact ih (op.apply g)

/-! ## What a history tells -/

/-- What each number stands for, if it stands for a subject at all. -/
abbrev Subjects := Nat → Option String

namespace Operation

/-- How many blocks are open after the operation, if so many were open before it. Closing a block
when none is open leaves none. -/
def depth : Operation → Nat → Nat
  | .enterOptional, depth => depth + 1
  | .exitOptional, depth => depth - 1
  | _, depth => depth

/-- Is the open block sealed? -/
def seals (depth : Nat) : Operation → Bool
  | .exitOptional => depth ≤ 1
  | _ => false

/-- What the numbers stand for after the operation. -/
def subjects : Operation → Subjects → Subjects
  | .registerNode id node _, subjects =>
    Function.update subjects node (some (id.getD (subjectVariable node)))
  | .demote node _, subjects => Function.update subjects node none
  | _, subjects => subjects

/-- The token that a demotion replaces, and what replaces it. A number that stands for nothing
cannot be demoted. -/
def renamings (subjects : Subjects) : Operation → List (String × String)
  | .demote node parent => (subjects node).toList.map fun subject => (subject, parent)
  | _ => []

/-- The clauses that the operation adds. -/
def clauses : Operation → List Clause
  | .append clauses => clauses
  | _ => []

end Operation

namespace History

/-- How many blocks are open after the history. -/
def openBlocks (depth : Nat) : History → Nat
  | [] => depth
  | op :: rest => openBlocks (op.depth depth) rest

/-- What is replaced before the open block is sealed. -/
def renamings (depth : Nat) (subjects : Subjects) : History → List (String × String)
  | [] => []
  | op :: rest =>
    if op.seals depth then []
    else op.renamings subjects ++ renamings (op.depth depth) (op.subjects subjects) rest

/-- The clauses that are added while no block is open. -/
def required (depth : Nat) : History → List Clause
  | [] => []
  | op :: rest => (if depth = 0 then op.clauses else []) ++ required (op.depth depth) rest

/-- The clauses that the first operation adds to the open block, with what is replaced in each of
them between its addition and the sealing of the block. -/
def heldBack (depth : Nat) (subjects : Subjects) (op : Operation) (rest : History) : List Clause :=
  if depth = 0 then []
  else op.clauses.map (Clause.renamed (renamings (op.depth depth) (op.subjects subjects) rest))

/-- The clauses that are added while a block is open, as they are when it is sealed. -/
def optional (depth : Nat) (subjects : Subjects) : History → List Clause
  | [] => []
  | op :: rest =>
    heldBack depth subjects op rest ++ optional (op.depth depth) (op.subjects subjects) rest

/-- Those of them that come into the open block before it is sealed. -/
def firstBlock (depth : Nat) (subjects : Subjects) : History → List Clause
  | [] => []
  | op :: rest =>
    if op.seals depth then []
    else heldBack depth subjects op rest ++ firstBlock (op.depth depth) (op.subjects subjects) rest

/-- Those that come in after it is sealed, block by block. -/
def laterBlocks (depth : Nat) (subjects : Subjects) : History → List (List Clause)
  | [] => []
  | op :: rest =>
    if op.seals depth then
      firstBlock (op.depth depth) (op.subjects subjects) rest
        :: laterBlocks (op.depth depth) (op.subjects subjects) rest
    else laterBlocks (op.depth depth) (op.subjects subjects) rest

/-- The clauses that are added while a block is open, block by block: the blocks in the order in
which they are sealed, and behind them the one that is not sealed yet. -/
def blocks (depth : Nat) (subjects : Subjects) (history : History) : List (List Clause) :=
  history.firstBlock depth subjects :: history.laterBlocks depth subjects

theorem flatten_blocks (history : History) (depth : Nat) (subjects : Subjects) :
    (history.blocks depth subjects).flatten = history.optional depth subjects := by
  induction history generalizing depth subjects with
  | nil => rfl
  | cons op rest ih =>
    rw [blocks, firstBlock, laterBlocks, optional, ← ih, blocks]
    split
    case isTrue hseals =>
      -- what seals a block adds nothing to it
      have hclauses : op.clauses = [] := by
        cases op <;> first | rfl | exact absurd hseals Bool.false_ne_true
      simp [heldBack, hclauses]
    case isFalse => simp

end History

/-! ## One operation -/

/-- What the numbers stand for in a group. -/
def subjects (g : Group) : Subjects :=
  fun number => lookupNumber? number g.nodes

theorem lookupNumber?_filter_self {α : Type} (number : Nat) (table : List (Nat × α)) :
    lookupNumber? number (table.filter (·.1 != number)) = none := by
  induction table with
  | nil => rfl
  | cons entry rest ih =>
    obtain ⟨key, value⟩ := entry
    by_cases hkey : key = number
    · simpa [hkey] using ih
    · simpa [hkey, lookupNumber?] using ih

/-- A number that stands for nothing is not demoted. -/
theorem demote_of_unregistered {g : Group} {node : Nat} (h : g.subjects node = none)
    (parent : String) : g.demote node parent = g := by
  have hlookup : lookupNumber? node g.nodes = none := h
  rw [demote, hlookup]

theorem demote_of_registered {g : Group} {node : Nat} {subject : String}
    (h : g.subjects node = some subject) (parent : String) :
    g.demote node parent = g.handedOver node subject parent :=
  demote_eq_handedOver h parent

/-- A demotion touches neither required clauses nor sealed blocks nor filters. -/
theorem demote_frame (g : Group) (node : Nat) (parent : String) :
    (g.demote node parent).required = g.required ∧
      (g.demote node parent).optionalBlocks = g.optionalBlocks ∧
      ∀ (i : Nat) (f : BoundFilter), (g.demote node parent).optionalBuffer[i]? = some (.filter f) ↔
        g.optionalBuffer[i]? = some (.filter f) := by
  rcases hsubject : g.subjects node with _ | subject
  · rw [demote_of_unregistered hsubject]
    exact ⟨rfl, rfl, fun _ _ => Iff.rfl⟩
  · rw [demote_of_registered hsubject]
    refine ⟨rfl, rfl, fun i f => ?_⟩
    simp [handedOver, Clause.substitute_eq_filter]

namespace Operation

variable (op : Operation) (g : Group)

theorem apply_optionalDepth : (op.apply g).optionalDepth = op.depth g.optionalDepth := by
  cases op with
  | append clauses => exact append_optionalDepth g clauses
  | exitOptional => exact exitOptional_optionalDepth g
  | demote node parent => exact demote_optionalDepth g node parent
  | _ => rfl

theorem apply_subjects : (op.apply g).subjects = op.subjects g.subjects := by
  funext number
  cases op with
  | append clauses => simp [apply, Group.subjects, subjects]
  | exitOptional => simp [apply, Group.subjects, subjects]
  | registerNode id node inverse =>
    rw [apply, Group.subjects, Group.registerNode, subjects]
    by_cases h : number = node
    · subst h
      simp [lookupNumber?_setNumber]
    · simp [h, lookupNumber?_setNumber_of_ne, Group.subjects]
  | demote node parent =>
    rw [apply, subjects]
    rcases hsubject : g.subjects node with _ | subject
    · rw [demote_of_unregistered hsubject]
      by_cases h : number = node
      · subst h
        simp [hsubject]
      · simp [h]
    · rw [demote_of_registered hsubject, Group.subjects, handedOver]
      by_cases h : number = node
      · subst h
        simp [lookupNumber?_filter_self]
      · simp [h, lookupNumber?_filter, Group.subjects]
  | _ => rfl

theorem apply_required :
    (op.apply g).required = g.required ++ if g.optionalDepth = 0 then op.clauses else [] := by
  cases op with
  | append clauses =>
    rw [apply, Group.append, inOptional]
    by_cases h : g.optionalDepth = 0
    · simp [h, Operation.clauses]
    · simp [h, Nat.pos_of_ne_zero h]
  | exitOptional =>
    rw [apply, Group.exitOptional]
    split <;> simp [clauses]
  | demote node parent =>
    rw [apply, (demote_frame g node parent).1]
    simp [clauses]
  | _ =>
    -- no clause comes in
    show g.required = _ ++ if _ then [] else []
    rw [ite_self, List.append_nil]

/-- A block is sealed as it is, and nothing is held back after it. -/
theorem apply_of_seals (h : op.seals g.optionalDepth = true) :
    (op.apply g).optionalBlocks = g.optionalBlocks ++ [g.optionalBuffer] ∧
      (op.apply g).optionalBuffer = [] := by
  cases op with
  | exitOptional =>
    have hdepth : g.optionalDepth - 1 = 0 := by
      have hle : g.optionalDepth ≤ 1 := by simpa [seals] using h
      omega
    simp [apply, Group.exitOptional, hdepth]
  | _ => exact absurd h Bool.false_ne_true

/-- What is held back, with all that is to be replaced in it, is the same before and after an
operation that seals no block, but for the clauses that the operation adds. -/
theorem apply_of_not_seals (h : ¬op.seals g.optionalDepth = true) (rest : History) :
    (op.apply g).optionalBlocks = g.optionalBlocks ∧
      (op.apply g).optionalBuffer.map (Clause.renamed
          (rest.renamings (op.depth g.optionalDepth) (op.subjects g.subjects))) =
        g.optionalBuffer.map (Clause.renamed
            (History.renamings g.optionalDepth g.subjects (op :: rest)))
          ++ History.heldBack g.optionalDepth g.subjects op rest := by
  rw [History.renamings, if_neg h, History.heldBack]
  generalize rest.renamings (op.depth g.optionalDepth) (op.subjects g.subjects) = later
  cases op with
  | append clauses =>
    rw [apply, Group.append, inOptional]
    by_cases hdepth : g.optionalDepth = 0
    · simp [hdepth, renamings]
    · simp [hdepth, Nat.pos_of_ne_zero hdepth, renamings, Operation.clauses]
  | exitOptional =>
    have hdepth : g.optionalDepth - 1 ≠ 0 := by
      have hle : ¬g.optionalDepth ≤ 1 := by simpa [seals] using h
      omega
    simp [apply, Group.exitOptional, hdepth, clauses, renamings]
  | demote node parent =>
    refine ⟨(demote_frame g node parent).2.1, ?_⟩
    rcases hsubject : g.subjects node with _ | subject
    · rw [apply, demote_of_unregistered hsubject]
      simp [renamings, clauses, hsubject]
    · rw [apply, demote_of_registered hsubject]
      simp [renamings, clauses, hsubject, handedOver, Function.comp_def]
  | _ =>
    -- nothing is replaced, and no clause comes in
    refine ⟨rfl, ?_⟩
    show g.optionalBuffer.map _ = g.optionalBuffer.map _ ++ if _ then [] else []
    rw [ite_self, List.append_nil]
    rfl

/-- Nothing is held back when no block is open. -/
theorem apply_buffer (h : g.optionalDepth = 0 → g.optionalBuffer = [])
    (hdepth : (op.apply g).optionalDepth = 0) : (op.apply g).optionalBuffer = [] := by
  rw [apply_optionalDepth] at hdepth
  cases op with
  | enterOptional => exact absurd hdepth (Nat.succ_ne_zero _)
  | append clauses =>
    have hzero : g.optionalDepth = 0 := hdepth
    simpa [apply, Group.append, inOptional, hzero] using h hzero
  | exitOptional => simp [apply, Group.exitOptional, show g.optionalDepth - 1 = 0 from hdepth]
  | demote node parent =>
    rw [apply]
    rcases hsubject : g.subjects node with _ | subject
    · rw [demote_of_unregistered hsubject]
      exact h hdepth
    · rw [demote_of_registered hsubject, handedOver, h hdepth, List.map_nil]
  | _ => exact h hdepth

end Operation

/-! ## A whole history -/

section

variable (g : Group) (history : History)

theorem run_optionalDepth :
    (g.run history).optionalDepth = history.openBlocks g.optionalDepth := by
  induction history generalizing g with
  | nil => rfl
  | cons op rest ih => rw [run, ih, Operation.apply_optionalDepth, History.openBlocks]

theorem run_required :
    (g.run history).required = g.required ++ history.required g.optionalDepth := by
  induction history generalizing g with
  | nil => exact (List.append_nil _).symm
  | cons op rest ih =>
    rw [run, ih, Operation.apply_required, Operation.apply_optionalDepth, History.required,
      List.append_assoc]

/-- What was held back before goes into the first block of the history. -/
theorem run_blocks :
    (g.run history).optionalBlocks ++ [(g.run history).optionalBuffer] =
      g.optionalBlocks ++
        (g.optionalBuffer.map
            (Clause.renamed (history.renamings g.optionalDepth g.subjects))
          ++ history.firstBlock g.optionalDepth g.subjects)
        :: history.laterBlocks g.optionalDepth g.subjects := by
  induction history generalizing g with
  | nil => simp [run, History.firstBlock, History.laterBlocks, History.renamings,
      Clause.map_renamed_nil]
  | cons op rest ih =>
    rw [run, ih, Operation.apply_optionalDepth, Operation.apply_subjects, History.firstBlock,
      History.laterBlocks]
    by_cases hseals : op.seals g.optionalDepth = true
    · obtain ⟨hblocks, hbuffer⟩ := op.apply_of_seals g hseals
      simp [hseals, hblocks, hbuffer, History.renamings, Clause.map_renamed_nil]
    · obtain ⟨hblocks, hbuffer⟩ := op.apply_of_not_seals g hseals rest
      rw [if_neg hseals, if_neg hseals, hblocks, hbuffer, List.append_assoc]

theorem run_buffer (h : g.optionalDepth = 0 → g.optionalBuffer = [])
    (hdepth : (g.run history).optionalDepth = 0) : (g.run history).optionalBuffer = [] := by
  induction history generalizing g with
  | nil => exact h hdepth
  | cons op rest ih => exact ih (op.apply g) (op.apply_buffer g h) hdepth

end

end Group

namespace Query

/-- What can be done to a query. -/
inductive Operation where
  /-- an operation on the group that was compiled first -/
  | group (op : Group.Operation)
  /-- say how many statements are wanted at most -/
  | setLimit (limit : Option UInt64)
  /-- say how many statements are passed over -/
  | setOffset (offset : Option UInt64)
  /-- take over another query -/
  | union (other : Query)

/-- What is done to a query, in order. -/
abbrev History := List Operation

/-- The query after an operation. -/
def Operation.apply : Operation → Query → Query
  | .group op, q => { q with main := op.apply q.main }
  | .setLimit limit, q => { q with limit := limit }
  | .setOffset offset, q => { q with offset := offset }
  | .union other, q => q.union other

/-- The query after a history. -/
def run (q : Query) : History → Query
  | [] => q
  | op :: rest => (op.apply q).run rest

namespace History

/-- What is done to the group that was compiled first. -/
def ofMain (history : History) : Group.History :=
  history.filterMap fun
    | .group op => some op
    | _ => none

/-- The queries that are taken over, each with its siblings behind it. -/
def taken (history : History) : List Query :=
  history.flatMap fun
    | .union other => other.members
    | _ => []

end History

theorem run_main (q : Query) (history : History) :
    (q.run history).main = q.main.run history.ofMain := by
  induction history generalizing q with
  | nil => rfl
  | cons op rest ih =>
    rw [run, ih]
    cases op <;> rfl

theorem run_siblings (q : Query) (history : History) :
    (q.run history).siblings = q.siblings ++ history.taken := by
  induction history generalizing q with
  | nil => exact (List.append_nil _).symm
  | cons op rest ih =>
    rw [run, ih]
    cases op with
    | union other => simp [Operation.apply, union, History.taken]
    | _ => rfl

/-- **Clauses are conserved.** Whatever is done to a query that was empty at first: its required
clauses are those that were added while no optional block was open, and the clauses of its
optional blocks, the open one included, are those that were added while one was open, in order
and with nothing but the replacements that were made while they were held back. Each block holds
those that were added between the sealing of the block before it and its own. Nothing is held
back when no block is open; a demotion touches neither required clauses nor sealed blocks nor
filters; and the queries that were taken over stay as they were. -/
theorem clauses_conserved (history : History) :
    (empty.run history).main.required = history.ofMain.required 0 ∧
    (empty.run history).main.optionalBlocks.flatten ++ (empty.run history).main.optionalBuffer =
      history.ofMain.optional 0 (fun _ => none) ∧
    (empty.run history).main.optionalBlocks ++ [(empty.run history).main.optionalBuffer] =
      history.ofMain.blocks 0 (fun _ => none) ∧
    (empty.run history).main.optionalDepth = history.ofMain.openBlocks 0 ∧
    (history.ofMain.openBlocks 0 = 0 → (empty.run history).main.optionalBuffer = []) ∧
    (∀ node parent,
      ((empty.run history).main.demote node parent).required =
          (empty.run history).main.required ∧
        ((empty.run history).main.demote node parent).optionalBlocks =
          (empty.run history).main.optionalBlocks ∧
        ∀ (i : Nat) (f : BoundFilter),
          ((empty.run history).main.demote node parent).optionalBuffer[i]? = some (.filter f) ↔
            (empty.run history).main.optionalBuffer[i]? = some (.filter f)) ∧
    (empty.run history).siblings = history.taken := by
  rw [run_main, run_siblings]
  have hdepth := Group.run_optionalDepth .empty history.ofMain
  have hblocks : _ = history.ofMain.blocks 0 fun _ => none :=
    Group.run_blocks .empty history.ofMain
  have hoptional := congrArg List.flatten hblocks
  rw [List.flatten_append, List.flatten_singleton, Group.History.flatten_blocks] at hoptional
  refine ⟨Group.run_required .empty _, hoptional, hblocks, hdepth, ?_, fun node parent => ?_, rfl⟩
  · intro hclosed
    exact Group.run_buffer .empty _ (fun _ => rfl) (hdepth.trans hclosed)
  · exact Group.demote_frame _ node parent

end Query

end LinkedData
