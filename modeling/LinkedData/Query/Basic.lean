import LinkedData.Query.Compile

/-!
# Queries

A query is a group with any number of siblings, alternatives that may match instead of it,
and bounds on how much of the answer is wanted. A sibling is a query with bounds of its own,
but without siblings: a query that joins another takes over its siblings. Nothing that is
written of a query looks further than the groups of its siblings.

Two forms are written. A *describe* query returns whole nodes, the described subjects; a
*select* query returns the bindings of the named variables, or of the described subjects if
nothing was named.
-/

namespace LinkedData

/-- A query. -/
structure Query where
  /-- the group that was compiled first -/
  main : Group
  /-- the alternatives to it, in order -/
  siblings : List Query
  /-- how many statements are wanted at most -/
  limit : Option UInt64
  /-- how many statements are passed over -/
  offset : Option UInt64

/-- The forms of queries. -/
inductive QueryForm where
  /-- whole nodes -/
  | describe
  /-- bindings of variables -/
  | select
  deriving DecidableEq

namespace Group

/-- The texts of clauses, with points between them. -/
def clausesText (clauses : List Clause) : String :=
  " . ".intercalate (clauses.map Clause.text)

/-- The text of an optional block. -/
def optionalText (block : List Clause) : String :=
  "OPTIONAL \x7b " ++ clausesText block ++ " \x7d"

/-- The text of a group, without its braces. -/
def body (g : Group) : String :=
  let required := clausesText g.required
  if g.optionalBlocks.isEmpty then required
  else
    let optionals := " ".intercalate (g.optionalBlocks.map optionalText)
    if required.isEmpty then optionals else required ++ " " ++ optionals

/-- The text of a group in braces. -/
def braced (g : Group) : String :=
  "\x7b " ++ g.body ++ " \x7d"

end Group

namespace Query

/-- A query of one group. -/
def ofGroup (group : Group) : Query :=
  ⟨group, [], none, none⟩

/-- A query without anything in it. -/
def empty : Query :=
  ofGroup .empty

/-- The query of a pattern. -/
def ofPattern (check : RegexCheck) (codec : Codec) (pattern : Node) : Except Error Query :=
  (Pattern.compile check codec pattern).map ofGroup

/-- A query without its siblings. -/
def alone (q : Query) : Query :=
  { q with siblings := [] }

/-- A query and its siblings, in order. -/
def members (q : Query) : List Query :=
  q.alone :: q.siblings

/-- The query that matches where either one does. The bounds are those of the first. -/
def union (q other : Query) : Query :=
  { q with siblings := q.siblings ++ other.members }

/-- All groups, in order. -/
def groups (q : Query) : List Group :=
  q.members.map Query.main

/-- Add tokens that are not there yet. -/
def merge (items more : List String) : List String :=
  more.foldl (fun items item => insertNew item items) items

/-- The described subjects of all groups, in the order of their first mention. -/
def describeProjection (q : Query) : List String :=
  q.siblings.foldl (fun items sibling => merge items sibling.main.projection) q.main.projection

/-- The named variables of all groups, in the order of their first mention. -/
def namedVariables (q : Query) : List String :=
  q.siblings.foldl (fun items sibling => merge items sibling.main.tupleVariables)
    q.main.tupleVariables

/-- What a select query returns. -/
def selectProjection (q : Query) : List String :=
  if q.namedVariables.isEmpty then q.describeProjection else q.namedVariables

/-- The condition of the query. -/
def whereText (q : Query) : String :=
  if q.siblings.isEmpty then q.main.braced
  else "\x7b " ++ " UNION ".intercalate (q.groups.map Group.braced) ++ " \x7d"

/-- The declarations of namespaces in front of every query. -/
def preamble : String :=
  "PREFIX : <" ++ Vocabulary.terms ++ "> PREFIX rdf: <" ++ Vocabulary.rdf
    ++ "> PREFIX rdfs: <" ++ Vocabulary.rdfs ++ "> PREFIX xsd: <" ++ Vocabulary.xsd
    ++ "> PREFIX fn: <" ++ Vocabulary.functions ++ "> "

/-- The text of the describe form. -/
def describeText (q : Query) : String :=
  preamble ++ "DESCRIBE " ++ " ".intercalate q.describeProjection ++ " WHERE " ++ q.whereText

/-- The text of the select form. -/
def selectText (q : Query) : String :=
  preamble ++ "SELECT DISTINCT " ++ " ".intercalate q.selectProjection ++ " WHERE "
    ++ q.whereText

/-- The text of a query in a form. -/
def render (q : Query) : QueryForm → String
  | .describe => q.describeText
  | .select => q.selectText

end Query

end LinkedData
