/-!
# Files by path

A directory holds files under relative paths. Reading follows a path name by name: a name leads
from a directory to what it holds, and nothing lies below a file. Of all that lies outside the
directory, only the directories above it are known.
-/

namespace Chip8

/-- Why a file could not be read. -/
inductive ReadError
  | noSuchFile
  | notADirectory
  | isADirectory
  | nameTooLong
  /-- Any other reason, as the host tells it. -/
  | other (text : String)
  deriving DecidableEq

/-- The host's words for a file that could not be read. -/
def ReadError.message : ReadError → String
  | noSuchFile => "No such file or directory (os error 2)"
  | notADirectory => "Not a directory (os error 20)"
  | isADirectory => "Is a directory (os error 21)"
  | nameTooLong => "File name too long (os error 36)"
  | other text => text

/-- A directory of files, each with the names that lead to it and its bytes. -/
structure Directory where
  files : List (List String × List UInt8)

namespace Directory

/-- Where a path has led so far. -/
inductive Place
  /-- The directory reached by these names. -/
  | directory (names : List String)
  /-- A directory above, by the number of steps. -/
  | above (steps : Nat)
  /-- A file with its bytes. -/
  | file (bytes : List UInt8)

/-- Whether a file lies below these names. -/
def isDirectory (directory : Directory) (names : List String) : Bool :=
  directory.files.any fun (path, _) => names.isPrefixOf path && names.length < path.length

/-- Follows one name of a path; the empty name, as between two slashes, stays in place. -/
def follow (directory : Directory) (place : Place) (name : String) : Except ReadError Place :=
  match place with
  | .file _ => .error .notADirectory
  | .above steps =>
    if name = "" ∨ name = "." then .ok (.above steps)
    else if name = ".." then .ok (.above (steps + 1))
    else if name.utf8ByteSize > 255 then .error .nameTooLong
    else .error .noSuchFile
  | .directory names =>
    if name = "" ∨ name = "." then .ok (.directory names)
    else if name = ".." then
      .ok (if names = [] then .above 1 else .directory names.dropLast)
    else if name.utf8ByteSize > 255 then .error .nameTooLong
    else
      let below := names ++ [name]
      match directory.files.lookup below with
      | some bytes => .ok (.file bytes)
      | none =>
        if directory.isDirectory below then .ok (.directory below) else .error .noSuchFile

/-- The place that a path starts from: one that begins with a slash starts above all. -/
def origin (path : String) : Place :=
  if path.startsWith "/" then .above 0 else .directory []

/-- The bytes of the file that a path leads to. -/
def read (directory : Directory) (path : String) : Except ReadError (List UInt8) := do
  if path = "" then
    throw .noSuchFile
  if path.utf8ByteSize ≥ 4096 then
    throw .nameTooLong
  match ← (path.splitOn "/").foldlM directory.follow (origin path) with
  | .file bytes => return bytes
  | _ => throw .isADirectory

end Directory

end Chip8
