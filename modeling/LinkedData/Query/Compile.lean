import LinkedData.Pattern.Filter
import LinkedData.Query.Group

/-!
# From patterns to groups

The clauses of a nested pattern come before the edges of the node that refers to it, and a
node's filters come after its own edges. A node without any edge asks for an arbitrary
property.

An optional branch is compiled like a pattern of its own, inside an open block, and is then
demoted to a continuation of the node that holds it.
-/

namespace LinkedData

/-- A computation on a group that may fail. What it did before a failure is kept. -/
abbrev Compiling (α : Type) := ExceptT Error (StateM Group) α

namespace Compiling

/-- Use an operation of groups that gives a result. -/
def step {α : Type} (f : Group → α × Group) : Compiling α :=
  modifyGetThe Group f

/-- Use an operation of groups that gives no result. -/
def change (f : Group → Group) : Compiling Unit :=
  modifyThe Group f

/-- Use a result that does not depend on the group. -/
def lift {α : Type} : Except Error α → Compiling α
  | .ok a => pure a
  | .error e => throw e

end Compiling

/-- A compiled node: its number and its subject token. -/
structure CompiledNode where
  /-- its number -/
  node : Nat
  /-- its subject -/
  subject : String

namespace Pattern

open Compiling

/-- The variable of a wildcard. -/
def wildcardToken : Option String → Compiling String
  | none => step Group.anonymousVariable
  | some name =>
    if Text.isWord name then step (·.namedVariable name)
    else throw (.unsupported (.variableName name))

/-- The subject token that an identifier stands for; none if the subject is to be a fresh
variable. -/
def subjectToken (codec : Codec) : Option Value → Compiling (Option String)
  | none => return none
  | some (.wildcard none) => return none
  | some (.wildcard (some name)) => do return some (← wildcardToken (some name))
  | some (.string s) =>
    match Reference.normalize? s with
    | some r => return some (Literal.bracketed r.locator)
    | none => throw (.unsupported (.identifierText s))
  | some (.reference r) => do return some (← lift (codec.encodeLiteral (.reference r)))
  | some (.iri locator) => do return some (← lift (codec.encodeLiteral (.iri locator)))
  | some other => throw (.unsupported (.identifierKind other.kind))

/-- Compile a filter on a node. The filter is read before its variable is made. -/
def compileFilter (check : RegexCheck) (codec : Codec) (entries : Node) (node : Nat) :
    Compiling BoundFilter := do
  let filter ← lift (Filter.ofNode check entries)
  let token ← step (·.freshFilterVariable node)
  let body ← lift (filter.render codec token)
  return ⟨token, Filter.clauseText body⟩

/-- The edges and the filters of a node, in order. -/
structure Edges where
  /-- the edges -/
  triples : List Triple
  /-- the filters -/
  filters : List BoundFilter

namespace Edges

/-- No edges. -/
def none : Edges := ⟨[], []⟩

/-- First these, then those. -/
def append (a b : Edges) : Edges :=
  ⟨a.triples ++ b.triples, a.filters ++ b.filters⟩

end Edges

/-- Which way an edge leads. -/
structure Direction where
  /-- the token of the property -/
  predicate : String
  /-- does the edge lead to the node rather than from it? -/
  inverse : Bool

/-- The edge between a node and a token. -/
def Direction.edge (d : Direction) (subject object : String) : Triple :=
  if d.inverse then ⟨object, d.predicate, subject⟩ else ⟨subject, d.predicate, object⟩

/-- Add the clauses of a node: its edges, or an arbitrary one, and then its filters. -/
def closeNode (vars : NodeVariables) (edges : Edges) : Compiling Unit :=
  let triples :=
    if edges.triples.isEmpty then [⟨vars.subject, vars.predicate, vars.object⟩]
    else edges.triples
  change (·.append (triples.map .triple ++ edges.filters.map .filter))

/-- Number a node and register it under its identifier. -/
def openNode (codec : Codec) (entries : Node) (inverse : Bool) :
    Compiling (Nat × NodeVariables) := do
  let node ← step Group.nextNodeId
  let id ← subjectToken codec (Fields.get? Vocabulary.idKey entries)
  let vars ← step (·.registerNode id node inverse)
  return (node, vars)

mutual

/-- The token of the value of an edge, and the filter if the value is one. -/
def compileObject (check : RegexCheck) (codec : Codec) (node : Nat) (inverse : Bool) :
    Value → Compiling (String × List BoundFilter)
  | .node entries => do
    if Filter.isFilter entries then
      let filter ← compileFilter check codec entries node
      return (filter.token, [filter])
    else
      let (inner, vars) ← openNode codec entries inverse
      let edges ← compileEntries check codec inner vars.subject entries
      closeNode vars edges
      return (vars.subject, [])
  | .wildcard name => do return (← wildcardToken name, [])
  | .list _ => throw (.unsupported .nestedPattern)
  | scalar => do return (← lift (codec.encodeLiteral scalar), [])

/-- The values of a list, each with an edge of its own. -/
def compileObjects (check : RegexCheck) (codec : Codec) (node : Nat) (subject : String)
    (direction : Direction) : List Value → Compiling Edges
  | [] => return .none
  | item :: rest => do
    let (object, filters) ← compileObject check codec node direction.inverse item
    let edges ← compileObjects check codec node subject direction rest
    return (Edges.mk [direction.edge subject object] filters).append edges

/-- An optional branch of the node with the given subject. -/
def compileBranch (check : RegexCheck) (codec : Codec) (subject : String) : Value → Compiling Unit
  | .node entries => do
    if Filter.isFilter entries then throw (.invalidFilter .optionalFilter)
    change Group.enterOptional
    let (inner, vars) ← openNode codec entries false
    let edges ← compileEntries check codec inner vars.subject entries
    closeNode vars edges
    change (·.demote inner subject)
    change Group.exitOptional
  | other => throw (.unsupported (.optionalKind other.kind))

/-- Several optional branches. -/
def compileBranches (check : RegexCheck) (codec : Codec) (subject : String) :
    List Value → Compiling Unit
  | [] => return ()
  | branch :: rest => do
    compileBranch check codec subject branch
    compileBranches check codec subject rest

/-- The properties of a node, in order. -/
def compileEntries (check : RegexCheck) (codec : Codec) (node : Nat) (subject : String) :
    List (String × Value) → Compiling Edges
  | [] => return .none
  | (key, value) :: rest => do
    let here ←
      match ← lift (PatternKey.resolve key) with
      | .id => pure Edges.none
      | .optional => do
        match value with
        | .list branches => compileBranches check codec subject branches
        | branch => compileBranch check codec subject branch
        pure Edges.none
      | .operator _ => throw (.invalidFilter (.mixedOperator key))
      | .inverse name => do
        let predicate ← lift (Literal.encodeTerm name)
        match value with
        | .list items => compileObjects check codec node subject ⟨predicate, true⟩ items
        | single => do
          let (object, filters) ← compileObject check codec node true single
          pure ⟨[⟨object, predicate, subject⟩], filters⟩
      | .wildcard name => do
        let predicate ← wildcardToken name
        match value with
        | .list items => compileObjects check codec node subject ⟨predicate, false⟩ items
        | single => do
          let (object, filters) ← compileObject check codec node false single
          pure ⟨[⟨subject, predicate, object⟩], filters⟩
      | .property predicate =>
        match value with
        | .list items => compileObjects check codec node subject ⟨predicate, false⟩ items
        | single => do
          let (object, filters) ← compileObject check codec node false single
          pure ⟨[⟨subject, predicate, object⟩], filters⟩
    let edges ← compileEntries check codec node subject rest
    return here.append edges

end

/-- Compile a pattern into a group. A filter is no pattern. -/
def compileInto (check : RegexCheck) (codec : Codec) (pattern : Node) : Compiling CompiledNode := do
  if Filter.isFilter pattern then throw (.invalidFilter .patternRoot)
  let (node, vars) ← openNode codec pattern false
  let edges ← compileEntries check codec node vars.subject pattern
  closeNode vars edges
  return ⟨node, vars.subject⟩

/-- The group of a pattern. -/
def compile (check : RegexCheck) (codec : Codec) (pattern : Node) : Except Error Group :=
  let (result, group) := (compileInto check codec pattern).run Group.empty
  result.map fun _ => group

end Pattern

end LinkedData
