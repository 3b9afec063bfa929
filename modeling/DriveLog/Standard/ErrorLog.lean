import DriveLog.Report
import DriveLog.Window.Series

/-! The error information page: one 64 byte slot for each error, newest first. A slot
whose error count is zero has not been used, and the log ends before it. -/

namespace DriveLog

open Text

/-- The status word of a completion. -/
structure Status where
  word : Nat
deriving DecidableEq, Repr

namespace Status

def phaseTag (s : Status) : Nat := s.word % 2

def code (s : Status) : Nat := s.word / 2 % 0x100

def codeType (s : Status) : Nat := s.word / 0x200 % 8

-- Bits 12 and 13 hold the retry delay, which is not reported.

def more (s : Status) : Nat := s.word / 0x4000 % 2

def doNotRetry (s : Status) : Nat := s.word / 0x8000 % 2

end Status

structure ErrorEntry where
  errorCount : Nat
  submissionQueue : Nat
  commandId : Nat
  status : Nat
  errorLocation : Nat
  lba : Nat
  namespaceId : Nat
  vendorSpecific : Nat
deriving DecidableEq, Repr

instance : Record ErrorEntry where
  layout := [.uint64, .uint16, .uint16, .uint16, .uint16, .uint64, .uint32, .uint8, .gap 35]
  ofFields := fun (errorCount, submissionQueue, commandId, status, errorLocation, lba,
      namespaceId, vendorSpecific, ()) =>
    ⟨errorCount, submissionQueue, commandId, status, errorLocation, lba, namespaceId,
      vendorSpecific⟩
  fields e := (e.errorCount, e.submissionQueue, e.commandId, e.status, e.errorLocation,
    e.lba, e.namespaceId, e.vendorSpecific, ())

namespace ErrorEntry

def statusField (e : ErrorEntry) : Status := ⟨e.status⟩

/-- The entry's part of the report, under its number in the log. -/
def report (number : Nat) (e : ErrorEntry) : Report :=
  ["Entry " ++ padLeft 2 '0' (decimal number),
    "=========",
    item " Error count:" e.errorCount,
    item " Submission queue ID:" e.submissionQueue,
    item " Command ID:" e.commandId,
    " Status:",
    item "  Phase tag:" e.statusField.phaseTag,
    item "  Status code:" e.statusField.code,
    item "  Status code type:" e.statusField.codeType,
    item "  More:" e.statusField.more,
    item "  DNR:" e.statusField.doNotRetry,
    item " Error location:" e.errorLocation,
    item " LBA:" e.lba,
    item " Namespace ID:" e.namespaceId,
    item " Vendor specific info:" e.vendorSpecific]
where
  item (label : String) (n : Nat) : String := Report.column 23 label (decimal n)

end ErrorEntry

structure ErrorLog where
  entries : List ErrorEntry
deriving DecidableEq, Repr

namespace ErrorLog

/-- A slot that has been used. -/
def isUsed (e : ErrorEntry) : Bool := e.errorCount ≠ 0

/-- The log by its slots, to which no byte string is too short. -/
def ofBytes (bs : Bytes) : ErrorLog where
  entries := ((Bytes.slots (Record.size ErrorEntry) bs).map Record.decode).takeWhile isUsed

def entryReader : ItemReader ErrorEntry := Record.reader (by decide)

/-- The log read slot by slot. -/
def read : Reader ErrorLog := fun w => do
  let (entries, w) ← entryReader.series? (Record.hasSlot ErrorEntry) isUsed w
  return (⟨entries⟩, w)

def ofBytes? (bs : Bytes) : Except Shortfall ErrorLog := (read (.ofBytes bs)).map Prod.fst

/-- No byte string is refused. -/
theorem ofBytes?_eq (bs : Bytes) : ofBytes? bs = .ok (ofBytes bs) := by
  rw [ofBytes?, read, entryReader,
    Record.series?_eq (by decide) (Record.counts_slotsLeft (by decide)), Record.ahead_slotsLeft]
  rfl

def report (log : ErrorLog) : Report :=
  Report.heading "Error Information Log" ++
    match log.entries with
    | [] => ["No error entries found"]
    | entries => (entries.zipIdx 1).flatMap fun (e, number) => e.report number

end ErrorLog

end DriveLog
