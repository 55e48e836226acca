/-!
# Failures of the store

What the external store may report instead of an answer.
-/

namespace LinkedData.Store

/-- The categories of failures. -/
inductive FailureKind where
  /-- a write broke an integrity constraint -/
  | integrityViolation
  /-- a database or resource does not exist -/
  | notFound
  /-- the request or the reply was lost -/
  | transport
  /-- anything else -/
  | other
  deriving DecidableEq

/-- A failure that the store reports. -/
structure Failure where
  /-- its category -/
  kind : FailureKind
  /-- the store's own words -/
  message : String
  deriving DecidableEq

/-- The text of a failure. -/
def Failure.text (f : Failure) : String :=
  match f.kind with
  | .integrityViolation => "integrity constraint violation: " ++ f.message
  | .notFound => "not found: " ++ f.message
  | .transport => "transport error: " ++ f.message
  | .other => f.message

end LinkedData.Store
