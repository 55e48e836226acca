import LinkedData.Query.Clause

/-!
# Groups

A group is what one pattern compiles to: the clauses that must match, blocks of clauses
that need not match, the subjects that the query describes, and the variables that the
caller named. It also keeps the counters from which fresh variables are made.

While an optional block is open, clauses are held back. Blocks nest, but only the outermost
one is sealed; what the inner ones hold becomes part of it.
-/

namespace LinkedData

/-- A list without repetitions, in the order of the first mention. -/
def insertNew (item : String) (items : List String) : List String :=
  if items.contains item then items else items ++ [item]

/-- The variables that a node gets. -/
structure NodeVariables where
  /-- its subject -/
  subject : String
  /-- a property of it -/
  predicate : String
  /-- the value of that property -/
  object : String

/-- What one pattern compiles to. -/
structure Group where
  /-- the next number for a node or an anonymous variable -/
  nodeCounter : Nat
  /-- for each node that has filters, the number of its next one -/
  filterCounters : List (Nat × Nat)
  /-- the clauses that must match -/
  required : List Clause
  /-- how many optional blocks are open -/
  optionalDepth : Nat
  /-- the clauses of the open block -/
  optionalBuffer : List Clause
  /-- the blocks that need not match -/
  optionalBlocks : List (List Clause)
  /-- the subjects that the query describes -/
  projection : List String
  /-- the subjects of the registered nodes -/
  nodes : List (Nat × String)
  /-- the variables that the caller named -/
  tupleVariables : List String

namespace Group

/-- A group without anything in it. -/
def empty : Group :=
  { nodeCounter := 0
    filterCounters := []
    required := []
    optionalDepth := 0
    optionalBuffer := []
    optionalBlocks := []
    projection := []
    nodes := []
    tupleVariables := [] }

/-- Is an optional block open? -/
def inOptional (g : Group) : Bool :=
  0 < g.optionalDepth

/-- The next number. -/
def nextNodeId (g : Group) : Nat × Group :=
  (g.nodeCounter, { g with nodeCounter := g.nodeCounter + 1 })

/-- The subject variable of a node without an identifier. -/
def subjectVariable (node : Nat) : String :=
  "?S_" ++ toString node

/-- The property variable of a node. -/
def predicateVariable (node : Nat) : String :=
  "?P_" ++ toString node

/-- The value variable of a node. -/
def objectVariable (node : Nat) : String :=
  "?O_" ++ toString node

/-- The variable of an anonymous wildcard. -/
def wildcardVariable (number : Nat) : String :=
  "?X_" ++ toString number

/-- The variable of a filter. -/
def filterVariable (node number : Nat) : String :=
  "?F_" ++ toString node ++ "_" ++ toString number

/-- The entry of a number in a table. -/
def lookupNumber? {α : Type} (number : Nat) : List (Nat × α) → Option α
  | [] => none
  | (key, value) :: rest => if key = number then some value else lookupNumber? number rest

/-- Set the entry of a number in a table. -/
def setNumber {α : Type} (number : Nat) (value : α) : List (Nat × α) → List (Nat × α)
  | [] => [(number, value)]
  | (key, old) :: rest =>
    if key = number then (key, value) :: rest else (key, old) :: setNumber number value rest

/-- Register a node. Its subject is its identifier, or else a fresh variable; it is
described, unless an inverse edge leads away from it. -/
def registerNode (g : Group) (id : Option String) (node : Nat) (inverse : Bool) :
    NodeVariables × Group :=
  let subject := id.getD (subjectVariable node)
  (⟨subject, predicateVariable node, objectVariable node⟩,
    { g with
      projection := if inverse then g.projection else insertNew subject g.projection
      nodes := setNumber node subject g.nodes })

/-- Add clauses: to the open optional block, or to those that must match. -/
def append (g : Group) (clauses : List Clause) : Group :=
  if g.inOptional then { g with optionalBuffer := g.optionalBuffer ++ clauses }
  else { g with required := g.required ++ clauses }

/-- Open an optional block. -/
def enterOptional (g : Group) : Group :=
  { g with optionalDepth := g.optionalDepth + 1 }

/-- Close an optional block; closing the outermost one seals it. -/
def exitOptional (g : Group) : Group :=
  let depth := g.optionalDepth - 1
  if depth = 0 then
    { g with
      optionalDepth := depth
      optionalBuffer := []
      optionalBlocks := g.optionalBlocks ++ [g.optionalBuffer] }
  else { g with optionalDepth := depth }

/-- Make a node the continuation of its parent: it is no longer described, and in the open
block its subject becomes the parent's. -/
def demote (g : Group) (node : Nat) (parent : String) : Group :=
  match lookupNumber? node g.nodes with
  | none => g
  | some subject =>
    { g with
      nodes := g.nodes.filter (·.1 != node)
      projection := g.projection.filter (· != subject)
      optionalBuffer := g.optionalBuffer.map (Clause.substitute subject parent) }

/-- A fresh variable for a filter of a node. -/
def freshFilterVariable (g : Group) (node : Nat) : String × Group :=
  let number := (lookupNumber? node g.filterCounters).getD 0
  (filterVariable node number,
    { g with filterCounters := setNumber node (number + 1) g.filterCounters })

/-- A fresh variable whose binding nobody asks for. -/
def anonymousVariable (g : Group) : String × Group :=
  let (number, g) := g.nextNodeId
  (wildcardVariable number, g)

/-- A variable that the caller named, and whose binding is returned. -/
def namedVariable (g : Group) (name : String) : String × Group :=
  let token := "?" ++ name
  (token, { g with tupleVariables := insertNew token g.tupleVariables })

end Group

end LinkedData
