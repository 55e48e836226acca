import LinkedData.Command.Run

/-!
# A directory in memory

Files by name, in one directory without subdirectories. A path is resolved step by step:
`.` stays where it is.
-/

namespace LinkedData

/-- The files of a directory by name. -/
abbrev Directory := Fields ByteArray

namespace Directory

/-- The parts of a path between its slashes. -/
def partsOf : List Char → List (List Char)
  | [] => [[]]
  | '/' :: rest => [] :: partsOf rest
  | c :: rest =>
    match partsOf rest with
    | part :: parts => (c :: part) :: parts
    | [] => [[c]]

/-- Does a part lead to no file, whatever files there are? -/
def isTrivial (part : String) : Bool :=
  part.isEmpty || part == "." || part == ".."

/-- Resolve the parts of a path that starts in the directory. -/
def resolve (files : Directory) : List String → Except ReadFault ByteArray
  | [] => .error .isDirectory
  | part :: rest =>
    if part = "" ∨ part = "." then resolve files rest
    else if 255 < part.utf8ByteSize then .error .nameTooLong
    else
      match files.get? part with
      | none => .error .notFound
      | some bytes => if rest.isEmpty then .ok bytes else .error .notDirectory

/-- The bytes of the file at a path. Nothing but directories is known to lie outside. -/
def read (files : Directory) (path : String) : Except ReadFault ByteArray :=
  let parts := (partsOf path.toList).map String.ofList
  if path.toList.contains '\x00' then .error .nulInPath
  else if parts.all isTrivial then .error .isDirectory
  else if Text.startsWith "/" path then .error .notFound
  else resolve files parts

end Directory

end LinkedData
