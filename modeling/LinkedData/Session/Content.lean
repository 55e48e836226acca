import LinkedData.Session.Basic
import LinkedData.Triple.Document

/-!
# What a session writes

Objects go into the default graph of the selected database, schema definitions into the
graph of the schema, and integrity constraints into the store's own keeping. Everything is
encoded before the store is called.
-/

namespace LinkedData.Session

/-- The document of an object graph, its nodes without an identifier named by an allocator. -/
def objectDocument (value : Value) (allocator : IdAllocator) : Conversing String := do
  let codec := (← getThe Session).codec
  Conversing.lift (Triple.documentOf codec false value allocator)

/-- The document of flat schema statements. -/
def schemaDocument (statements : List Value) : Conversing String := do
  let codec := (← getThe Session).codec
  let triples ← Conversing.lift (Triple.ofStatements codec statements)
  return Triple.document true triples

/-- The error for a write that the store does not accept. A broken integrity constraint
stays attached to an error of its own. -/
def refusedWrite (failure : Store.Failure) : Error :=
  if failure.kind = .integrityViolation then
    .rejected "error storing objects in the graph: a validation has failed" failure
  else .store failure

/-- Store an object graph. -/
def store (value : Value) (allocator : IdAllocator) : Conversing Unit := do
  let database ← selected
  let document ← objectDocument value allocator
  Conversing.callOr refusedWrite (.add database document none Vocabulary.turtleMedia)

/-- Remove the statements of an object graph. Nodes without an identifier get fresh ones,
so nothing of them is found. -/
def remove (value : Value) (allocator : IdAllocator) : Conversing Unit := do
  let database ← selected
  let document ← objectDocument value allocator
  Conversing.call (.remove database document none Vocabulary.turtleMedia)

/-- Add schema definitions. -/
def define (statements : List Value) : Conversing Unit := do
  let database ← selected
  let document ← schemaDocument statements
  Conversing.call
    (.add database document (some (schemaGraph database)) Vocabulary.turtleMedia)

/-- Drop schema definitions. -/
def retractDefinition (statements : List Value) : Conversing Unit := do
  let database ← selected
  let document ← schemaDocument statements
  Conversing.call
    (.remove database document (some (schemaGraph database)) Vocabulary.turtleMedia)

/-- Add integrity constraints. -/
def validate (statements : List Value) : Conversing Unit := do
  let database ← selected
  let document ← schemaDocument statements
  Conversing.call (.addConstraints database document Vocabulary.turtleMedia)

/-- Drop integrity constraints. -/
def retractValidation (statements : List Value) : Conversing Unit := do
  let database ← selected
  let document ← schemaDocument statements
  Conversing.call (.removeConstraints database document Vocabulary.turtleMedia)

end LinkedData.Session
