/-!
# Options of the store

The settings of a database, and what goes along with a query.
-/

namespace LinkedData.Store

/-- The profiles of reasoning. -/
inductive ReasoningLevel where
  | ql | rl | el | dl
  deriving DecidableEq

namespace ReasoningLevel

/-- The level that is taken if none is asked for. -/
def standard : ReasoningLevel := .ql

/-- The name under which the store knows a level. -/
def name : ReasoningLevel → String
  | .ql => "QL"
  | .rl => "RL"
  | .el => "EL"
  | .dl => "DL"

end ReasoningLevel

/-- A setting of a database. -/
inductive DatabaseOption where
  /-- are integrity constraints checked on every write? -/
  | validation (enabled : Bool)
  /-- the profile of reasoning that validation uses -/
  | reasoning (level : ReasoningLevel)
  /-- the graph that holds the schema definitions -/
  | schemaGraph (graph : String)
  deriving DecidableEq

namespace DatabaseOption

/-- The key under which the store knows a setting. -/
def key : DatabaseOption → String
  | .validation _ => "icv.enabled"
  | .reasoning _ => "icv.reasoning.type"
  | .schemaGraph _ => "reasoning.schema.graphs"

/-- The value of a setting as text. -/
def value : DatabaseOption → String
  | .validation true => "true"
  | .validation false => "false"
  | .reasoning level => level.name
  | .schemaGraph graph => graph

end DatabaseOption

/-- What goes along with a query. -/
structure QueryOptions where
  /-- how many statements are wanted at most -/
  limit : Option UInt64
  /-- how many statements are passed over -/
  offset : Option UInt64
  /-- the media type wanted; without one the store answers in JSON -/
  accept : Option String
  /-- is it a describe query? -/
  describe : Bool
  /-- the profile of reasoning, if any -/
  reasoning : Option ReasoningLevel
  deriving DecidableEq

end LinkedData.Store
