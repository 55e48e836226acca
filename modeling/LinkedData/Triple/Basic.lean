/-!
# Triples

A statement: a subject, a predicate and an object, each as wire text — a locator, a
variable or a literal.
-/

namespace LinkedData

/-- A statement in wire text. -/
structure Triple where
  /-- what the statement is about -/
  subject : String
  /-- the property -/
  predicate : String
  /-- the value of the property -/
  object : String
  deriving DecidableEq

namespace Triple

/-- The token, or its replacement if it is the one to replace. -/
def replaceToken (old new token : String) : String :=
  if token = old then new else token

/-- Replace a token wherever it stands. -/
def substitute (t : Triple) (old new : String) : Triple :=
  ⟨replaceToken old new t.subject, replaceToken old new t.predicate,
    replaceToken old new t.object⟩

/-- The three tokens, a space between them. -/
def text (t : Triple) : String :=
  t.subject ++ " " ++ t.predicate ++ " " ++ t.object

end Triple

end LinkedData
