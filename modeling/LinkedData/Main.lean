import LinkedData.Command.Run
import LinkedData.Host.Regex.Check
import LinkedData.Host.Seed

/-!
# The program

Reads the arguments, the environment and the files, runs the command and prints what it
gives. Usage faults end the program with status 2, all other errors with status 1.
-/

open LinkedData

namespace LinkedData.Program

/-- How the program is used. -/
def usage : String :=
  "usage: query PATTERN [--select] [--union FILE...]\n"
    ++ "       turtle DATA [--schema]\n"
    ++ "       decode RESULTS [--unlink | --tuples]\n"
    ++ "       config"

/-- What is printed about arguments that make no command. -/
def usageText : UsageFault → String
  | .nothing | .help => usage
  | .version => "0.1.0"
  | .unknownCommand => "error: there is no such command"
  | .unknownArgument => "error: unexpected argument"
  | .missingArgument => "error: a path is missing"
  | .conflict => "error: these arguments cannot be used together"
  | .invalidValue => "error: a value is missing or empty"
  | .superfluousValue => "error: a switch takes no value"

/-- Did the user ask for what is printed? -/
def isWanted : UsageFault → Bool
  | .help | .version => true
  | _ => false

/-- The fault behind an error of the system, told by the system's number for it. -/
def faultOf : IO.Error → ReadFault
  | .noFileOrDirectory _ _ _ => .notFound
  | .inappropriateType _ 20 _ => .notDirectory
  | .inappropriateType _ 21 _ => .isDirectory
  | error => .other (toString error)

/-- Read the bytes of a file. -/
def readFile (path : String) : IO (Except ReadFault ByteArray) := do
  try
    return .ok (← IO.FS.readBinFile path)
  catch error => return .error (faultOf error)

/-- A source of identifiers that differs from run to run. -/
def freshAllocator : IO IdAllocator := do
  let bytes ← IO.getRandomBytes 8
  return .seeded (bytes.foldl (fun word byte => word * 256 + byte.toUInt64) 0)

/-- The libraries that the program runs with. -/
def libraries : Libraries where
  regex := Regex.check
  notJson := fun _ => "not a JSON document"

/-- The configuration that the environment gives. -/
def environmentConfig : IO (Except ConfigFault Config) := do
  let endpoint ← IO.getEnv Config.endpointVariable
  let user ← IO.getEnv Config.userVariable
  let password ← IO.getEnv Config.passwordVariable
  let database ← IO.getEnv Config.databaseVariable
  let validate ← IO.getEnv Config.validateVariable
  return Config.ofVariables fun name =>
    if name = Config.endpointVariable then endpoint
    else if name = Config.userVariable then user
    else if name = Config.passwordVariable then password
    else if name = Config.databaseVariable then database
    else if name = Config.validateVariable then validate
    else none

/-- Run a command under a configuration. -/
def execute (command : Command) (config : Config) : IO UInt32 := do
  match ← (command.run readFile config libraries (← freshAllocator)).run with
  | .ok output =>
    IO.println output
    return 0
  | .error error =>
    IO.eprintln error.message
    return 1

end LinkedData.Program

/-- Arguments are read before the environment. -/
def main (arguments : List String) : IO UInt32 := do
  match Command.ofArguments arguments with
  | .error fault =>
    if Program.isWanted fault then
      IO.println (Program.usageText fault)
      return 0
    else
      IO.eprintln (Program.usageText fault)
      return 2
  | .ok command =>
    match ← Program.environmentConfig with
    | .error fault =>
      IO.eprintln ("Failed to load configuration: " ++ fault.message)
      return 1
    | .ok config => Program.execute command config
