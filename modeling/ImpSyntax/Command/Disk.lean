import ImpSyntax.Command.FileTree
import ImpSyntax.Command.Path
import ImpSyntax.Text.Bytes

/-!
# Disks

A `Disk` is a file tree and a current directory in it, from which paths are followed.  `Disk.read`
gives the text of the file at a path, or the reason why there is none to read; `Disk.write` puts a
file at a path and makes the directories it needs.  What a command does with its files is thereby a
function of a value.
-/

namespace ImpSyntax

/-- Why the text of a file cannot be read. -/
inductive ReadFailure where
  /-- Nothing is found at the path. -/
  | notFound
  /-- The path leads through a file as if it were a directory. -/
  | notDirectory
  /-- The path leads to a directory. -/
  | isDirectory
  /-- The path, or a name in it, has more bytes than the system allows. -/
  | nameTooLong
  /-- The bytes of the file encode no text. -/
  | notText
  /-- The system gives another reason. -/
  | other (reason : String)
deriving DecidableEq, Repr

/-- The wording of a reason, with the number that the system has for it. -/
def ReadFailure.reason : ReadFailure → String
  | notFound => "No such file or directory (os error 2)"
  | notDirectory => "Not a directory (os error 20)"
  | isDirectory => "Is a directory (os error 21)"
  | nameTooLong => "File name too long (os error 36)"
  | notText => "stream did not contain valid UTF-8"
  | other reason => reason

/-- The text that the bytes of a file encode. -/
def decodeText (content : ByteArray) : Except ReadFailure String :=
  match String.fromUTF8? content with
  | some text => .ok text
  | none => .error .notText

/-- A file tree with a current directory. -/
structure Disk where
  root : FileTree
  current : List FileName

namespace Disk

/-- The largest length of a name, in bytes. -/
def maxNameSize : Nat :=
  255

/-- The largest length of a path, in bytes. -/
def maxPathSize : Nat :=
  4095

/-- A disk whose current directory is empty and lies among the temporary files. -/
def fresh : Disk :=
  let current := ["tmp".toList, "work".toList]
  ⟨FileTree.emptyDirectory.put current .emptyDirectory, current⟩

/-- The place where a path starts: the root if it begins with a slash, and else the current
directory. -/
def origin (disk : Disk) (path : List Char) : List FileName :=
  if path.head? = some '/' then [] else disk.current

/-- Follow the steps of a path from a place.  Each step is taken from a directory, and the root is
above itself. -/
def follow (disk : Disk) (place : List FileName) : List (List Char) → Except ReadFailure FileTree
  | [] =>
    match disk.root.at? place with
    | some tree => .ok tree
    | none => .error .notFound
  | step :: rest =>
    match disk.root.at? place with
    | none => .error .notFound
    | some tree =>
      if !tree.isDirectory then .error .notDirectory
      else if Path.stays step then disk.follow place rest
      else if Path.goesBack step then disk.follow place.dropLast rest
      else if maxNameSize < Text.byteSize step then .error .nameTooLong
      else disk.follow (place ++ [step]) rest

/-- What is at the end of a path.  The empty path leads nowhere. -/
def find (disk : Disk) (path : String) : Except ReadFailure FileTree :=
  let path := path.toList
  if path = [] then .error .notFound
  else if maxPathSize < Text.byteSize path then .error .nameTooLong
  else disk.follow (disk.origin path) (Path.steps path)

/-- The text of the file at a path. -/
def read (disk : Disk) (path : String) : Except ReadFailure String :=
  match disk.find path with
  | .error failure => .error failure
  | .ok (.directory _) => .error .isDirectory
  | .ok (.file content) => decodeText content

/-- Put something at the end of the steps of a path from a place.  Every name on the way becomes a
directory, also one that the path leaves again. -/
def putAlong (new : FileTree) (place : List FileName) :
    List (List Char) → FileTree → FileTree
  | [], root => root.put place new
  | step :: rest, root =>
    if Path.stays step then putAlong new place rest root
    else if Path.goesBack step then putAlong new place.dropLast rest root
    else
      let place := place ++ [step]
      let known := (root.at? place).getD .emptyDirectory
      putAlong new place rest (root.put place known)

/-- Write the bytes of a file to a path. -/
def write (disk : Disk) (path : String) (content : ByteArray) : Disk :=
  let path := path.toList
  { disk with
    root := putAlong (.file content) (disk.origin path) (Path.steps path) disk.root }

end Disk

end ImpSyntax
