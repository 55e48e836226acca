import LinkedData.Json.Printer
import LinkedData.Text.Blank

/-!
# Configuration

A session is configured by five variables, none of which need be set. User and password
come as a pair. The variables are read in the order endpoint, credentials, database,
validation, and the first one at fault is reported.
-/

namespace LinkedData

/-- How to reach the store, and what to do there first. -/
structure Config where
  /-- where the store is -/
  endpoint : String
  /-- on whose behalf -/
  user : String
  /-- the user's password, which is never written out -/
  password : String
  /-- the database that is selected at the start -/
  database : Option String
  /-- do new databases check integrity constraints? -/
  validate : Bool
  deriving DecidableEq

/-- Why variables do not make a configuration. -/
inductive ConfigFault where
  /-- half of a pair is missing -/
  | missing (name : String)
  /-- the endpoint is blank -/
  | blank (name : String)
  /-- not a truth value -/
  | notBoolean (name value : String)
  deriving DecidableEq

/-- The text of a fault. -/
def ConfigFault.message : ConfigFault → String
  | .missing name => "missing required environment variable: " ++ name
  | .blank name => "invalid value for " ++ name ++ ": must not be empty"
  | .notBoolean name value =>
    "invalid value for " ++ name ++ ": '" ++ value ++ "' is not a boolean"

namespace Config

/-- The variable of the endpoint. -/
def endpointVariable : String := "TRIPLEQL_ENDPOINT"

/-- The variable of the user. -/
def userVariable : String := "TRIPLEQL_USER"

/-- The variable of the password. -/
def passwordVariable : String := "TRIPLEQL_PASSWORD"

/-- The variable of the database. -/
def databaseVariable : String := "TRIPLEQL_DATABASE"

/-- The variable of validation. -/
def validateVariable : String := "TRIPLEQL_VALIDATE"

/-- The endpoint if none is set. -/
def defaultEndpoint : String := "http://localhost:5822/"

/-- User and password if neither is set. -/
def defaultCredential : String := "admin"

/-- The endpoint: anything that is not blank. -/
def endpointOf : Option String → Except ConfigFault String
  | none => .ok defaultEndpoint
  | some text =>
    if text.toList.all Text.isBlank then .error (.blank endpointVariable) else .ok text

/-- User and password: both or neither. -/
def credentialsOf : Option String → Option String → Except ConfigFault (String × String)
  | some user, some password => .ok (user, password)
  | none, none => .ok (defaultCredential, defaultCredential)
  | some _, none => .error (.missing passwordVariable)
  | none, some _ => .error (.missing userVariable)

/-- The database: an empty name selects none. -/
def databaseOf (name : Option String) : Option String :=
  name.filter (!·.isEmpty)

/-- The spellings of yes and no, in letters of either case. -/
def readSwitch? (text : String) : Option Bool :=
  let lower := text.map Char.toLower
  if lower = "1" ∨ lower = "true" ∨ lower = "yes" ∨ lower = "on" then some true
  else if lower = "0" ∨ lower = "false" ∨ lower = "no" ∨ lower = "off" ∨ lower = "" then
    some false
  else none

/-- Validation: off unless it is switched on. -/
def validateOf : Option String → Except ConfigFault Bool
  | none => .ok false
  | some text =>
    match readSwitch? text with
    | some enabled => .ok enabled
    | none => .error (.notBoolean validateVariable text)

/-- The configuration that variables give. -/
def ofVariables (lookup : String → Option String) : Except ConfigFault Config := do
  let endpoint ← endpointOf (lookup endpointVariable)
  let (user, password) ← credentialsOf (lookup userVariable) (lookup passwordVariable)
  let validate ← validateOf (lookup validateVariable)
  return ⟨endpoint, user, password, databaseOf (lookup databaseVariable), validate⟩

/-- The document of a configuration, without the password. -/
def toJson (config : Config) : Json :=
  .object
    [("endpoint", .string config.endpoint),
      ("user", .string config.user),
      ("database", (config.database.map Json.string).getD .null),
      ("validate", .boolean config.validate)]

end Config

end LinkedData
