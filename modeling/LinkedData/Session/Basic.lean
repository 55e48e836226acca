import LinkedData.Config
import LinkedData.Literal.Codec
import LinkedData.Query.Basic
import LinkedData.Store.Exchange

/-!
# Sessions

A session holds on to one database of a store and to one query, which can be refined before
it is run. What it remembers is a plain value; an operation is a `Conversing` computation,
which may call the store, may change what the session remembers, and may fail. What was
changed before a failure stays changed.

This module has the databases and their settings. A database that the store does not know
is made when it is first selected; its schema definitions are kept in a graph of their own.
Settings can be changed only while a database is offline.
-/

namespace LinkedData

/-- What a session remembers. -/
structure Session where
  /-- the handlers of custom kinds -/
  codec : Codec
  /-- the libraries that it works with -/
  libraries : Libraries
  /-- the databases that are known to exist -/
  databases : List String
  /-- the selected database -/
  database : Option String
  /-- do new databases get validation? -/
  validations : Bool
  /-- the profile of reasoning under which queries are answered -/
  reasoning : Option Store.ReasoningLevel
  /-- the current query -/
  current : Option Query

/-- An operation of a session. -/
abbrev Conversing (α : Type) : Type :=
  ExceptT Error (StateT Session Store.Exchange) α

namespace Conversing

/-- Make a call; a failure of the store ends the operation with the error that `refuse`
makes of it. -/
def callOr (refuse : Store.Failure → Error) (call : Store.Call) : Conversing call.Reply :=
  ExceptT.mk do
    match ← (Store.Exchange.call call : StateT Session Store.Exchange call.Answer) with
    | .ok reply => return .ok reply
    | .error failure => return .error (refuse failure)

/-- Make a call; a failure of the store is passed on. -/
def call (call : Store.Call) : Conversing call.Reply :=
  callOr .store call

/-- Use a result that needs no conversation. -/
def lift {α : Type} : Except Error α → Conversing α
  | .ok a => pure a
  | .error e => throw e

end Conversing

namespace Session

/-- The graph that holds the schema definitions of a database. -/
def schemaGraph (database : String) : String :=
  database ++ ":schema"

/-- The error if no database is selected. -/
def noDatabase : Error :=
  .store ⟨.notFound, "no database selected"⟩

/-- The selected database. -/
def selected : Conversing String := do
  match (← getThe Session).database with
  | some database => return database
  | none => throw noDatabase

/-- Change the settings of a database: take it offline, set them, bring it back. -/
def changeSettings (database : String) (options : List Store.DatabaseOption) :
    Conversing Unit := do
  Conversing.call (.takeOffline database)
  Conversing.call (.setDatabaseOptions database options)
  Conversing.call (.bringOnline database)

/-- Select a database. One that is not known is made first, and gets validation if the
session wants it. -/
def selectDatabase (name : String) : Conversing Unit := do
  if !(← getThe Session).databases.contains name then
    Conversing.call (.createDatabase name [.schemaGraph (schemaGraph name)])
    modifyThe Session fun s => { s with databases := s.databases ++ [name] }
    if (← getThe Session).validations then
      changeSettings name [.validation true]
  modifyThe Session fun s => { s with database := some name }

/-- Switch validation on or off, for the selected database and for those to be made. -/
def setValidations (enabled : Bool) : Conversing Unit := do
  let database ← selected
  modifyThe Session fun s => { s with validations := enabled }
  changeSettings database [.validation enabled]

/-- Answer queries under a profile of reasoning. -/
def setReasoning (level : Store.ReasoningLevel) : Conversing Unit := do
  let database ← selected
  changeSettings database [.reasoning level]
  modifyThe Session fun s => { s with reasoning := some level }

/-- Answer queries without reasoning. -/
def clearReasoning : Conversing Unit :=
  modifyThe Session fun s => { s with reasoning := none }

/-- Upload a document of rules. -/
def uploadRules (document : String) : Conversing Unit := do
  let database ← selected
  Conversing.call (.uploadRules database document)

/-- A session that has just learnt which databases there are. -/
def opened (config : Config) (codec : Codec) (libraries : Libraries) (databases : List String) :
    Session :=
  { codec
    libraries
    databases
    database := none
    validations := config.validate
    reasoning := none
    current := none }

/-- Select the database of a configuration, if it names one. -/
def selectConfigured (config : Config) : Conversing Unit :=
  match config.database with
  | some database => selectDatabase database
  | none => return ()

/-- Open a session. -/
def connect (config : Config) (codec : Codec) (libraries : Libraries) :
    Store.Exchange (Except Error Session) := do
  match ← Store.Exchange.call .listDatabases with
  | .error failure => return .error (.store failure)
  | .ok databases =>
    let (result, session) ← (selectConfigured config).run
      (opened config codec libraries databases)
    return result.map fun _ => session

end Session

end LinkedData
