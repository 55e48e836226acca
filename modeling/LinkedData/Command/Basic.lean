import LinkedData.Command.Arguments
import LinkedData.Query.Basic

/-!
# Commands

The commands work on files alone, and none of them calls a store: compile a pattern into a
query, write an object graph as a document of statements, decode a response, print the
configuration.
-/

namespace LinkedData

/-- A command. -/
inductive Command where
  /-- compile a pattern and its alternatives -/
  | query (pattern : String) (form : QueryForm) (alternatives : List String)
  /-- write an object graph, or flat schema statements, as a document -/
  | turtle (data : String) (schema : Bool)
  /-- decode a response into nodes; with `unlink`, only those to which no other links -/
  | decodeNodes (results : String) (unlink : Bool)
  /-- decode a response into rows -/
  | decodeTuples (results : String)
  /-- print the configuration -/
  | config
  deriving DecidableEq

namespace Command

/-- What `query` takes. -/
def querySignature : Signature :=
  ⟨true, ["select"], some "union"⟩

/-- What `turtle` takes. -/
def turtleSignature : Signature :=
  ⟨true, ["schema"], none⟩

/-- What `decode` takes. -/
def decodeSignature : Signature :=
  ⟨true, ["unlink", "tuples"], none⟩

/-- What `config` takes. -/
def configSignature : Signature :=
  ⟨false, [], none⟩

/-- The path of a command that must have one. -/
def requirePath (arguments : Arguments) : Except UsageFault String :=
  match arguments.path with
  | some path => .ok path
  | none => .error .missingArgument

/-- The command `query` with these arguments. -/
def ofQueryArguments (arguments : Arguments) : Except UsageFault Command := do
  let path ← requirePath arguments
  let form := if "select" ∈ arguments.switches then QueryForm.select else QueryForm.describe
  return .query path form arguments.listed

/-- The command `turtle` with these arguments. -/
def ofTurtleArguments (arguments : Arguments) : Except UsageFault Command := do
  return .turtle (← requirePath arguments) (decide ("schema" ∈ arguments.switches))

/-- The command `decode` with these arguments. Rows are not linked, so the two switches
exclude each other, whatever else is wrong. -/
def ofDecodeArguments (arguments : Arguments) : Except UsageFault Command := do
  let unlink := decide ("unlink" ∈ arguments.switches)
  let tuples := decide ("tuples" ∈ arguments.switches)
  if unlink && tuples then throw .conflict
  let path ← requirePath arguments
  return if tuples then .decodeTuples path else .decodeNodes path unlink

/-- The command of a name, from the arguments that follow it; other names have none. -/
def ofName? (name : String) : Option (List String → Except UsageFault Command) :=
  if name = "query" then
    some fun rest => do ofQueryArguments (← Arguments.empty.read querySignature rest)
  else if name = "turtle" then
    some fun rest => do ofTurtleArguments (← Arguments.empty.read turtleSignature rest)
  else if name = "decode" then
    some fun rest => do ofDecodeArguments (← Arguments.empty.read decodeSignature rest)
  else if name = "config" then
    some fun rest => do
      let _ ← Arguments.empty.read configSignature rest
      return .config
  else none

/-- Is it the name of a command, or of the help on commands? -/
def isName (name : String) : Bool :=
  name == "help" || (ofName? name).isSome

/-- What becomes of `help` and the names after it: help on one command at most. -/
def helpFault : List String → UsageFault
  | [] => .help
  | [name] => if isName name then .help else .unknownCommand
  | _ => .unknownCommand

/-- Why an option in the place of a command is no command. -/
def optionFault (name : String) (value : Option String) : UsageFault :=
  if name = "help" ∨ name = "version" then
    if value.isSome then .superfluousValue
    else if name = "help" then .help
    else .version
  else .unknownArgument

/-- Why short options in the place of a command are no command. -/
def shortFault (letters : List Char) : UsageFault :=
  match letters.head? with
  | some 'h' => .help
  | some 'V' => .version
  | _ => .unknownArgument

/-- Why what follows `--` is no command. -/
def separatedFault : List String → UsageFault
  | [] => .nothing
  | name :: _ => if isName name then .unknownArgument else .unknownCommand

/-- The command of a list of arguments. -/
def ofArguments : List String → Except UsageFault Command
  | [] => .error .nothing
  | first :: rest =>
    match ofName? first with
    | some command => command rest
    | none =>
      if first = "help" then .error (helpFault rest)
      else
        match ArgumentForm.ofText first with
        | .separator => .error (separatedFault rest)
        | .long name value => .error (optionFault name value)
        | .short letters => .error (shortFault letters)
        | .plain => .error .unknownCommand

end Command

end LinkedData
