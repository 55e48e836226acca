import LinkedData.Triple.Basic

/-!
# Clauses

A group of a query is a sequence of clauses: triples, and filters on a variable.
-/

namespace LinkedData

/-- A rendered filter and the variable that it is about. -/
structure BoundFilter where
  /-- the token of the variable, which is the value of the filtered edge -/
  token : String
  /-- the text of the filter -/
  text : String
  deriving DecidableEq

/-- An entry of a group. -/
inductive Clause where
  /-- an edge -/
  | triple (t : Triple)
  /-- a filter -/
  | filter (f : BoundFilter)
  deriving DecidableEq

namespace Clause

/-- Replace a token of a triple. The text of a filter mentions its own variable only, and
stays. -/
def substitute (old new : String) : Clause → Clause
  | .triple t => .triple (t.substitute old new)
  | .filter f => .filter f

/-- The text of a clause. -/
def text : Clause → String
  | .triple t => t.text
  | .filter f => f.text

end Clause

end LinkedData
