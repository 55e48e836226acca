import LinkedData.Json.Reader
import LinkedData.Result.Tuples
import LinkedData.Session.Basic

/-!
# What a session asks

A query is compiled once and may then be refined: by alternatives, and by bounds on how
much of the answer is wanted. It can be run in its describe form, which gives nodes, or in
its select form, which gives rows. Running a query leaves it as it is.
-/

namespace LinkedData.Session

/-- The current query. -/
def currentQuery : Conversing Query := do
  match (← getThe Session).current with
  | some query => return query
  | none => throw .noActiveQuery

/-- What a session makes of a pattern. -/
def compiled (s : Session) (pattern : Node) : Except Error Query :=
  Query.ofPattern s.libraries.regex s.codec pattern

/-- Make a pattern the current query. The one before is forgotten even if the pattern does
not compile. -/
def query (pattern : Node) : Conversing Unit := do
  modifyThe Session fun s => { s with current := none }
  let query ← Conversing.lift ((← getThe Session).compiled pattern)
  modifyThe Session fun s => { s with current := some query }

/-- Put a changed query in the place of the current one. -/
def refine (change : Query → Query) : Conversing Unit := do
  let query ← currentQuery
  modifyThe Session fun s => { s with current := some (change query) }

/-- Let a pattern be an alternative to the current query. -/
def union (pattern : Node) : Conversing Unit := do
  let sibling ← Conversing.lift ((← getThe Session).compiled pattern)
  refine (·.union sibling)

/-- Bound how many statements the store returns. -/
def limit (count : UInt64) : Conversing Unit :=
  refine fun query => { query with limit := some count }

/-- Let the store pass over some statements. -/
def offset (count : UInt64) : Conversing Unit :=
  refine fun query => { query with offset := some count }

/-- Send the text of a query with its bounds, and read the response. -/
def submit (query : Query) (text : String) (describe : Bool) : Conversing Json := do
  let database ← selected
  let reasoning := (← getThe Session).reasoning
  let body ← Conversing.call (.query database text
    { limit := query.limit, offset := query.offset, accept := none, describe, reasoning })
  match Json.read? body with
  | some response => return response
  | none => throw (.malformed (.notJson ((← getThe Session).libraries.notJson body)))

/-- Run the current query in its describe form. -/
def run : Conversing Json := do
  let query ← currentQuery
  submit query query.describeText true

/-- Run the current query and decode the nodes. With `unlink`, only the nodes to which no
other one links are listed. -/
def all (unlink : Bool) : Conversing ResultGraph := do
  let response ← run
  Conversing.lift (ResultGraph.ofJson (← getThe Session).codec response unlink)

/-- Run the current query and return the first listed node. -/
def first (unlink : Bool) : Conversing (Option Value) := do
  let graph ← all unlink
  return graph.topLevel.head?.map graph.toValue

/-- Run the current query in its select form and decode the rows. -/
def tuples : Conversing (List Row) := do
  let query ← currentQuery
  let response ← submit query query.selectText false
  Conversing.lift (Row.allOfJson (← getThe Session).codec response)

/-- Remove every node that the current query matches. The matches are fetched without
bounds, and go back to the store as they came. -/
def removeMatching : Conversing Unit := do
  let database ← selected
  let query ← currentQuery
  let reasoning := (← getThe Session).reasoning
  let matched ← Conversing.call (.query database query.describeText
    { limit := none
      offset := none
      accept := some Vocabulary.rdfXmlMedia
      describe := true
      reasoning })
  Conversing.call (.remove database matched none Vocabulary.rdfXmlMedia)

end LinkedData.Session
