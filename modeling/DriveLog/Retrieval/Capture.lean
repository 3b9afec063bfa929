import DriveLog.Bytes.Slots
import DriveLog.Retrieval.Basic
import DriveLog.Retrieval.Files

/-! Captures. A capture is a file that holds one page and stands in for a controller:
every query is answered with the file as it is then, cut or filled with zeros to the
size asked for. -/

namespace DriveLog

open Text

structure Capture where
  path : String
  namespaceSmart : Bool
  lastErrorEntry : UInt8
deriving DecidableEq, Repr

/-- A capture that could not be opened. -/
structure CaptureFailure where
  path : String
  fault : FileFault
deriving DecidableEq, Repr

namespace CaptureFailure

def message (failure : CaptureFailure) : String :=
  "cannot open capture file " ++ failure.path

def causes (failure : CaptureFailure) : List String := [failure.fault.message]

end CaptureFailure

namespace Capture

/-- The number of the last whole entry that fits in a file of this length. A file too
short for one counts as one, and no number goes past 255. -/
def lastEntryOfLength (length : Nat) : UInt8 := UInt8.ofNat (min 255 (max 1 (length / 64) - 1))

/-- Opens the file at a path. The number of entries may be given instead of derived. -/
def ofPath? (files : Files) (path : String) (namespaceSmart : Bool)
    (lastErrorEntry : Option UInt8) : Except CaptureFailure Capture :=
  match files path with
  | .error fault => .error ⟨path, fault⟩
  | .ok entry =>
    .ok { path, namespaceSmart,
          lastErrorEntry := lastErrorEntry.getD (lastEntryOfLength entry.size) }

def message (capture : Capture) (captured : Nat) (query : Query) : Message :=
  ⟨.debug, .capture, "page " ++ hexWord 2 query.page.toNat ++ " nsid " ++
    hexWord 1 query.namespaceId.toNat ++ " from " ++ capture.path ++ ": " ++
    decimal captured ++ " bytes captured, " ++ decimal query.size ++ " requested"⟩

def answer (capture : Capture) (files : Files) (query : Query) : Answer :=
  match files capture.path >>= FileEntry.bytes with
  | .error fault => { result := .error (.io fault.message) }
  | .ok bs =>
    { result := .ok (bs.resize query.size)
      messages := [capture.message bs.length query] }

/-- The capture as a controller, with the files as they are now. -/
def controller (capture : Capture) (files : Files) : Controller where
  namespaceSmart := capture.namespaceSmart
  lastErrorEntry := capture.lastErrorEntry
  answer := capture.answer files

end Capture

end DriveLog
