import DriveLog.Bytes.LittleEndian

/-! Files as a program finds them: a path leads to a file, to a directory, or nowhere. -/

namespace DriveLog

/-- Why a path does not lead to bytes. -/
inductive FileFault where
  | notFound
  | notDirectory
  | isDirectory
  | nameTooLong
  | permissionDenied
  | nulInPath
  | other (reason : String)
deriving DecidableEq, Repr

def FileFault.message : FileFault → String
  | notFound => "No such file or directory (os error 2)"
  | notDirectory => "Not a directory (os error 20)"
  | isDirectory => "Is a directory (os error 21)"
  | nameTooLong => "File name too long (os error 36)"
  | permissionDenied => "Permission denied (os error 13)"
  | nulInPath => "file name contained an unexpected NUL byte"
  | other reason => reason

inductive FileEntry where
  | file (bs : Bytes)
  | directory (size : Nat)
deriving DecidableEq, Repr

namespace FileEntry

def size : FileEntry → Nat
  | file bs => bs.length
  | directory size => size

/-- The bytes of a file; a directory has none to read. -/
def bytes : FileEntry → Except FileFault Bytes
  | file bs => .ok bs
  | directory _ => .error .isDirectory

/-- The size a directory reports for itself. -/
def directorySize : Nat := 4096

end FileEntry

/-- What each path leads to. -/
abbrev Files := String → Except FileFault FileEntry

end DriveLog
