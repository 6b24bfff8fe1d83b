import JointSpend.Fault

set_option autoImplicit false
set_option relaxedAutoImplicit false

/-!
# Directories

A directory holds files by name. Names may lead into directories below it, which are there when they
hold a file. Writing replaces the whole file, or fails and changes nothing.

## Main definitions

* `JointSpend.Directory` — the files of a directory.
* `JointSpend.Directory.read`, `JointSpend.Directory.write` — reading and writing a file.
-/

namespace JointSpend

/-- Why a file cannot be read or written. -/
inductive FileFault where
  | notFound
  | notADirectory
  | isADirectory
  | notUtf8
  deriving DecidableEq

/-- The wording of a fault, which is that of the operating system. -/
def FileFault.message : FileFault → String
  | notFound => "No such file or directory (os error 2)"
  | notADirectory => "Not a directory (os error 20)"
  | isADirectory => "Is a directory (os error 21)"
  | notUtf8 => "stream did not contain valid UTF-8"

/-- The fault of an operation on a file. -/
def FileFault.fault (cause : FileFault) : Fault :=
  .io cause.message

/-- The names that lead to a file. -/
abbrev FilePath := List String

/-- The names in a written path. A point stands for the directory itself. -/
def FilePath.ofText (text : String) : FilePath :=
  (text.splitOn "/").filter fun part => !part.isEmpty && part != "."

/-- The files of a directory. -/
structure Directory where
  files : List (FilePath × Bytes)
  deriving DecidableEq

namespace Directory

/-- The bytes of a file. -/
def find? (dir : Directory) (path : FilePath) : Option Bytes :=
  (dir.files.find? fun f => f.1 == path).map (·.2)

/-- Whether a path leads to a directory: the given one, or one above a file. -/
def isDirectory (dir : Directory) (path : FilePath) : Bool :=
  path.isEmpty || dir.files.any fun f => path.isPrefixOf f.1 && path != f.1

/-- Whether a path leads through a file. -/
def isBelowFile (dir : Directory) (path : FilePath) : Bool :=
  dir.files.any fun f => f.1.isPrefixOf path && path != f.1

/-- Why nothing can be found at a path. -/
def absence (dir : Directory) (path : FilePath) : FileFault :=
  if dir.isBelowFile path then .notADirectory else .notFound

/-- Reads a file. -/
def read (dir : Directory) (path : String) : Except Fault Bytes :=
  let path := FilePath.ofText path
  match dir.find? path with
  | some bytes => .ok bytes
  | none =>
    if dir.isDirectory path then .error FileFault.isADirectory.fault
    else .error (dir.absence path).fault

/-- The files with other bytes for one of them. -/
def put (path : FilePath) (bytes : Bytes) : List (FilePath × Bytes) → List (FilePath × Bytes)
  | [] => [(path, bytes)]
  | f :: rest => if f.1 = path then (path, bytes) :: rest else f :: put path bytes rest

/-- Writes a file, in a directory that is there. -/
def write (dir : Directory) (path : String) (bytes : Bytes) : Except Fault Directory :=
  let path := FilePath.ofText path
  if dir.isDirectory path then .error FileFault.isADirectory.fault
  else if dir.isDirectory path.dropLast then .ok ⟨put path bytes dir.files⟩
  else .error (dir.absence path).fault

/-- The files that another directory has with other bytes or does not have at all. -/
def changes (before after : Directory) : List (FilePath × Bytes) :=
  after.files.filter fun f => before.find? f.1 != some f.2

end Directory

end JointSpend
