import LinkedData.Text.Affix

/-!
# Arguments

The arguments that follow the name of a command: at most one path, switches, and at most
one option that takes a list of paths. Arguments are taken from the left.

A path, or the list of an option, is *pending* until it is known to be complete: at the next
option or path, or at the end. Only then is it looked at, so an argument that is unknown
altogether is reported before a path that is empty. After `--` everything is a path.
-/

namespace LinkedData

/-- Why arguments do not make a command. -/
inductive UsageFault where
  /-- there are no arguments at all -/
  | nothing
  /-- help is wanted -/
  | help
  /-- the version is wanted -/
  | version
  /-- there is no such command -/
  | unknownCommand
  /-- the command does not take this argument -/
  | unknownArgument
  /-- a path is missing -/
  | missingArgument
  /-- two arguments that exclude each other, or one that may come only once -/
  | conflict
  /-- an empty path, or an empty list of paths -/
  | invalidValue
  /-- a value for a switch -/
  | superfluousValue
  deriving DecidableEq

/-- What a command takes. -/
structure Signature where
  /-- does it take a path? -/
  takesPath : Bool
  /-- its switches -/
  switches : List String
  /-- its option with a list of paths, if it has one -/
  listOption : Option String

/-- The form of an argument. -/
inductive ArgumentForm where
  /-- `--`: only paths follow -/
  | separator
  /-- `--name` or `--name=value` -/
  | long (name : String) (value : Option String)
  /-- `-abc` -/
  | short (letters : List Char)
  /-- anything else -/
  | plain

namespace ArgumentForm

/-- The form of an argument of which the leading `--` was taken off. -/
def ofLong (text : String) : ArgumentForm :=
  let name := String.ofList (text.toList.takeWhile (· != '='))
  match text.toList.dropWhile (· != '=') with
  | _ :: value => .long name (some (String.ofList value))
  | [] => .long name none

/-- The form of an argument. A single `-` is an ordinary text. -/
def ofText (text : String) : ArgumentForm :=
  if text = "--" then .separator
  else
    match Text.after? "--" text with
    | some rest => ofLong rest
    | none =>
      match Text.after? "-" text with
      | some rest => if rest.isEmpty then .plain else .short rest.toList
      | none => .plain

end ArgumentForm

/-- What is taken but not looked at yet. -/
inductive Pending where
  /-- the path -/
  | path (text : String)
  /-- the list of the option, so far -/
  | list (items : List String)

/-- The arguments taken so far. -/
structure Arguments where
  /-- the path -/
  path : Option String
  /-- the switches that are set -/
  switches : List String
  /-- the paths of the option -/
  listed : List String
  /-- what is pending -/
  pending : Option Pending

namespace Arguments

/-- Before anything is taken. -/
def empty : Arguments :=
  ⟨none, [], [], none⟩

/-- Has a path been taken? -/
def hasPath (a : Arguments) : Bool :=
  a.path.isSome ||
    match a.pending with
    | some (.path _) => true
    | _ => false

/-- Paths that may not be empty, of which there is at least one. -/
def checkList (items : List String) : Except UsageFault (List String) :=
  if items.isEmpty || items.any (·.isEmpty) then .error .invalidValue else .ok items

/-- Look at what is pending. -/
def settle (a : Arguments) : Except UsageFault Arguments :=
  match a.pending with
  | none => .ok a
  | some (.path text) =>
    if text.isEmpty then .error .invalidValue
    else .ok { a with path := some text, pending := none }
  | some (.list items) => do
    let items ← checkList items
    return { a with listed := a.listed ++ items, pending := none }

/-- Take a path. -/
def takePath (signature : Signature) (a : Arguments) (text : String) :
    Except UsageFault Arguments :=
  if signature.takesPath && !a.hasPath then do
    return { ← a.settle with pending := some (.path text) }
  else .error .unknownArgument

/-- Take a text that is not an option: one more path of a list that is pending, or the
path. -/
def takePlain (signature : Signature) (a : Arguments) (text : String) :
    Except UsageFault Arguments :=
  match a.pending with
  | some (.list items) => .ok { a with pending := some (.list (items ++ [text])) }
  | _ => a.takePath signature text

/-- Set a switch, which may be done only once. -/
def takeSwitch (a : Arguments) (name : String) : Except UsageFault Arguments := do
  let a ← a.settle
  if a.switches.contains name then throw .conflict
  return { a with switches := a.switches ++ [name] }

/-- Take the option with a list: the attached value, or all texts that follow. -/
def takeListOption (a : Arguments) (value : Option String) : Except UsageFault Arguments := do
  let a ← a.settle
  match value with
  | none => return { a with pending := some (.list []) }
  | some text => return { a with listed := a.listed ++ (← checkList [text]) }

/-- Ask for help. -/
def takeHelp (a : Arguments) : Except UsageFault Arguments := do
  let _ ← a.settle
  throw .help

/-- Take an option with a long name. -/
def takeLong (signature : Signature) (a : Arguments) (name : String) (value : Option String) :
    Except UsageFault Arguments :=
  if signature.listOption = some name then a.takeListOption value
  else if name = "help" ∨ name ∈ signature.switches then
    if value.isSome then .error .superfluousValue
    else if name = "help" then a.takeHelp
    else a.takeSwitch name
  else .error .unknownArgument

/-- Take options with short names, of which only the one for help exists. -/
def takeShort (a : Arguments) (letters : List Char) : Except UsageFault Arguments :=
  if letters.head? = some 'h' then a.takeHelp else .error .unknownArgument

/-- Take paths only, to the end. -/
def readPaths (signature : Signature) (a : Arguments) :
    List String → Except UsageFault Arguments
  | [] => a.settle
  | text :: rest => do readPaths signature (← a.takePath signature text) rest

/-- Take arguments, to the end. -/
def read (signature : Signature) (a : Arguments) : List String → Except UsageFault Arguments
  | [] => a.settle
  | text :: rest =>
    match ArgumentForm.ofText text with
    | .separator => readPaths signature a rest
    | .long name value => do read signature (← a.takeLong signature name value) rest
    | .short letters => do read signature (← a.takeShort letters) rest
    | .plain => do read signature (← a.takePlain signature text) rest

end Arguments

end LinkedData
