import LinkedData.Command.Basic
import LinkedData.Config
import LinkedData.Json.Printer
import LinkedData.Json.Reader
import LinkedData.Result.Tuples
import LinkedData.Triple.Document

/-!
# Running commands

A command reads its files one after the other, each as late as possible: an alternative of
a query is read when the pattern before it has been compiled. Where the files come from is
left open; a command runs in any monad in which a file can be read.
-/

namespace LinkedData

/-- Why a file cannot be read. -/
inductive ReadFault where
  /-- there is no such file -/
  | notFound
  /-- it is a directory -/
  | isDirectory
  /-- a part of the path is a file where a directory is needed -/
  | notDirectory
  /-- a part of the path is longer than names may be -/
  | nameTooLong
  /-- the path holds the character that ends texts of the system -/
  | nulInPath
  /-- the bytes are no text in UTF-8 -/
  | notText
  /-- another report of the system -/
  | other (report : String)
  deriving DecidableEq

/-- The text of a fault. -/
def ReadFault.message : ReadFault → String
  | .notFound => "No such file or directory (os error 2)"
  | .isDirectory => "Is a directory (os error 21)"
  | .notDirectory => "Not a directory (os error 20)"
  | .nameTooLong => "File name too long (os error 36)"
  | .nulInPath => "file name contained an unexpected NUL byte"
  | .notText => "stream did not contain valid UTF-8"
  | .other report => report

/-- Why the content of a file is not what a command takes. -/
inductive InputFault where
  /-- not the object of a pattern -/
  | notPattern (kind : Value.Kind)
  /-- not the array of flat statements -/
  | notStatements
  deriving DecidableEq

/-- The text of a fault. -/
def InputFault.message : InputFault → String
  | .notPattern kind => "a pattern must be an object, not " ++ kind.name
  | .notStatements => "schema statements must be a flat array"

/-- Why a command fails. -/
inductive CommandError where
  /-- a file cannot be read -/
  | unreadable (path : String) (fault : ReadFault)
  /-- a file holds no JSON document, as the library that reads it reports -/
  | notJson (path report : String)
  /-- a file holds the wrong kind of document -/
  | input (path : String) (fault : InputFault)
  /-- encoding, compiling or decoding fails -/
  | failed (cause : Error)

/-- The text of an error. -/
def CommandError.message : CommandError → String
  | .unreadable path fault => "cannot read " ++ path ++ ": " ++ fault.message
  | .notJson path report => path ++ " is not valid JSON: " ++ report
  | .input path fault => path ++ ": " ++ fault.message
  | .failed cause => cause.message

namespace Command

variable {m : Type → Type} [Monad m]

/-- Reading the bytes of the file at a path. -/
abbrev Reader (m : Type → Type) : Type :=
  String → m (Except ReadFault ByteArray)

/-- The document in the bytes of a file. -/
def documentOf (libraries : Libraries) (path : String) (bytes : ByteArray) :
    Except CommandError Json :=
  match String.fromUTF8? bytes with
  | none => .error (.unreadable path .notText)
  | some text =>
    match Json.read? text with
    | some document => .ok document
    | none => .error (.notJson path (libraries.notJson text))

/-- The document in the file at a path. -/
def readDocument (read : Reader m) (libraries : Libraries) (path : String) :
    ExceptT CommandError m Json :=
  ExceptT.mk do
    match ← read path with
    | .error fault => return .error (.unreadable path fault)
    | .ok bytes => return documentOf libraries path bytes

/-- Use a result that needs no file. -/
def lift {α : Type} (result : Except Error α) : ExceptT CommandError m α :=
  ExceptT.mk (pure (result.mapError .failed))

/-- The query of the pattern in a file. -/
def readQuery (read : Reader m) (libraries : Libraries) (path : String) :
    ExceptT CommandError m Query := do
  match Value.ofJson (← readDocument read libraries path) with
  | .node pattern => lift (Query.ofPattern libraries.regex .empty pattern)
  | other => throw (.input path (.notPattern other.kind))

/-- Let the patterns in some files be alternatives to a query. -/
def readAlternatives (read : Reader m) (libraries : Libraries) (query : Query) :
    List String → ExceptT CommandError m Query
  | [] => return query
  | path :: rest => do
    readAlternatives read libraries (query.union (← readQuery read libraries path)) rest

/-- The document of flat schema statements. -/
def schemaDocument (path : String) : Value → ExceptT CommandError m String
  | .list statements => do
    return Triple.document true (← lift (Triple.ofStatements .empty statements))
  | _ => throw (.input path .notStatements)

/-- Run a command: the text that it prints. Nodes without an identifier are named by an
allocator. -/
def run (read : Reader m) (config : Config) (libraries : Libraries) (allocator : IdAllocator) :
    Command → ExceptT CommandError m String
  | .query pattern form alternatives => do
    let query ← readQuery read libraries pattern
    return (← readAlternatives read libraries query alternatives).render form
  | .turtle data schema => do
    let value := Value.ofJson (← readDocument read libraries data)
    if schema then schemaDocument data value
    else lift (Triple.documentOf .empty false value allocator)
  | .decodeNodes results unlink => do
    let graph ← lift (ResultGraph.ofJson .empty (← readDocument read libraries results) unlink)
    return (Value.toJson (.list graph.toValues)).pretty
  | .decodeTuples results => do
    let rows ← lift (Row.allOfJson .empty (← readDocument read libraries results))
    return (Row.documentOf rows).pretty
  | .config => return config.toJson.pretty

end Command

end LinkedData
