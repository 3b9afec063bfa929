import DriveLog.Retrieval.Files

/-! A disk of plain files. The directories that are there are the working directory, those
above it and the root; a path is walked through them component by component. Paths that
lead to one name in one directory lead to the same file, however they are written. -/

namespace DriveLog

inductive Directory where
  /-- The directory so many levels above the working directory. -/
  | above (levels : Nat)
  | root
deriving DecidableEq, Repr

namespace Directory

def working : Directory := above 0

/-- The root is its own parent. -/
def parent : Directory → Directory
  | above levels => above (levels + 1)
  | root => root

end Directory

/-- A name in a directory, whether or not a file bears it. -/
structure Location where
  directory : Directory
  name : String
deriving DecidableEq, Repr

/-- Where a path leads. -/
inductive Place where
  | directory (directory : Directory)
  | name (location : Location)
deriving DecidableEq, Repr

/-- The files by their locations. -/
structure Disk where
  contents? : Location → Option Bytes := fun _ => none

namespace Disk

/-- Gives a location new contents, or none. -/
def put (disk : Disk) (location : Location) (contents : Option Bytes) : Disk where
  contents? other := if other = location then contents else disk.contents? other

@[simp] theorem contents?_put (disk : Disk) (location other : Location)
    (contents : Option Bytes) :
    (disk.put location contents).contents? other =
      if other = location then contents else disk.contents? other := rfl

/-! ## Paths -/

/-- The longest name of one file and the longest path, in bytes. -/
def maxName : Nat := 255
def maxPath : Nat := 4095

/-- What stands between the separators of a path, and before the first and behind the last. -/
def components (path : String) : List String := (path.toList.splitOn '/').map String.ofList

/-- Whether a component stays in its directory. -/
def isIdle (component : String) : Bool := component = "" || component = "."

/-- Walks on from a directory. A file ends the walk: anything after its name, even a
single separator, asks for a directory in its place. -/
def walk (disk : Disk) (directory : Directory) : List String → Except FileFault Place
  | [] => .ok (.directory directory)
  | component :: rest =>
    if isIdle component then disk.walk directory rest
    else if component = ".." then disk.walk directory.parent rest
    else if component.utf8ByteSize > maxName then .error .nameTooLong
    else
      let location : Location := ⟨directory, component⟩
      if rest.isEmpty then .ok (.name location)
      else if (disk.contents? location).isSome then .error .notDirectory
      else .error .notFound

/-- A path is looked at as a whole first, then walked from the root or from here. -/
def locate (disk : Disk) (path : String) : Except FileFault Place :=
  if path.toList.contains '\x00' then .error .nulInPath
  else if path = "" then .error .notFound
  else if path.utf8ByteSize > maxPath then .error .nameTooLong
  else disk.walk (if path.startsWith "/" then .root else .working) (components path)

/-- The location a path names; a directory is no such location. -/
def locateName (disk : Disk) (path : String) : Except FileFault Location := do
  match ← disk.locate path with
  | .directory _ => throw .isDirectory
  | .name location => return location

/-! ## Operations -/

def find (disk : Disk) : Files := fun path => do
  match ← disk.locate path with
  | .directory _ => return .directory FileEntry.directorySize
  | .name location =>
    match disk.contents? location with
    | none => throw .notFound
    | some bs => return .file bs

/-- Replaces the file at a path, or makes one. -/
def write (disk : Disk) (path : String) (bs : Bytes) : Except FileFault Disk := do
  return disk.put (← disk.locateName path) (some bs)

/-- Removes the file at a path, which must be there. -/
def remove (disk : Disk) (path : String) : Except FileFault Disk := do
  let location ← disk.locateName path
  if (disk.contents? location).isSome then return disk.put location none
  else throw .notFound

end Disk

end DriveLog
