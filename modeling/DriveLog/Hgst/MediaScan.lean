import DriveLog.Hgst.Anomaly
import DriveLog.Message
import DriveLog.Report
import DriveLog.Window.Series

/-! The background media scan subpage: a header, then one slot of 24 bytes for each
retired block. A slot without the fixed bytes is corrupt and stays in its place; a slot
of the wrong length ends the list. -/

namespace DriveLog.Hgst

open Text

inductive ScanStatus where
  | idle
  | active
  | suspended
  | unknown (status : Nat)
deriving DecidableEq, Repr

namespace ScanStatus

def ofNat : Nat → ScanStatus
  | 0 => idle
  | 1 => active
  | 8 => suspended
  | n => unknown n

def shown : ScanStatus → String
  | idle => "idle"
  | active => "active"
  | suspended => "suspended"
  | unknown _ => "unknown"

end ScanStatus

structure ScanHeader where
  code : Nat
  flags : Nat
  length : Nat
  powerOnMinutes : Nat
  status : Nat
  scanCount : Nat
  progress : Nat
deriving DecidableEq, Repr

instance : Record ScanHeader where
  layout := [.uint16, .uint8, .uint8, .uint32, .gap 1, .uint8, .uint16, .uint16, .gap 6]
  ofFields := fun (code, flags, length, powerOnMinutes, status, scanCount, progress, ()) =>
    ⟨code, flags, length, powerOnMinutes, status, scanCount, progress⟩
  fields h := (h.code, h.flags, h.length, h.powerOnMinutes, h.status, h.scanCount,
    h.progress, ())

namespace ScanHeader

def parameterLength : Nat := 0x10

def scanStatus (h : ScanHeader) : ScanStatus := .ofNat h.status

end ScanHeader

structure RetirementRecord where
  code : Nat
  flags : Nat
  length : Nat
  powerOnMinutes : Nat
  magic : Bytes
  nand : Nat
deriving DecidableEq, Repr

instance : Record RetirementRecord where
  layout := [.uint16, .uint8, .uint8, .uint32, .field (.bytes 8), .gap 4, .uint32]
  ofFields := fun (code, flags, length, powerOnMinutes, magic, nand, ()) =>
    ⟨code, flags, length, powerOnMinutes, magic, nand⟩
  fields r := (r.code, r.flags, r.length, r.powerOnMinutes, r.magic, r.nand, ())

namespace RetirementRecord

def parameterLength : Nat := 0x14

def hasRightLength (r : RetirementRecord) : Bool := r.length = parameterLength

theorem hasRightLength_iff {r : RetirementRecord} : r.hasRightLength = true ↔ r.length = 0x14 :=
  decide_eq_true_iff

/-- The bytes that every intact record holds. -/
def fixedMagic : Bytes := [0x41, 0x0b, 0x01, 0x00, 0x00, 0x00, 0x00, 0x00]

end RetirementRecord

inductive Retirement where
  | valid (number nand : Nat)
  | corrupt (code : Nat)
deriving DecidableEq, Repr

namespace Retirement

def ofRecord (r : RetirementRecord) : Retirement :=
  if r.magic = RetirementRecord.fixedMagic then .valid r.code r.nand else .corrupt r.code

def report : Retirement → Report
  | valid number nand =>
    [Report.field 2 "Retirement number" (decimal number),
      Report.field 4 "NAND (C/T)BBBPPP" (hexWord 1 nand)]
  | corrupt code => ["Parameter " ++ hexWord 1 code ++ " entry corrupt"]

end Retirement

structure MediaScan where
  header : Option ScanHeader := none
  /-- The whole slots the subpage has room for. -/
  slots : Nat := 0
  retirements : List Retirement := []
  fault : Option Anomaly := none
  /-- The bytes behind the last slot that was read. -/
  trailing : Nat := 0
deriving DecidableEq, Repr

namespace MediaScan

def slotReader : ItemReader RetirementRecord := Record.reader (by decide)

/-- The list goes on with slots of the right length, whatever else they hold. -/
def rule : SeriesRule RetirementRecord Retirement Anomaly where
  keep := RetirementRecord.hasRightLength
  value := Retirement.ofRecord
  faultOf r := some (.retirementLength r.code r.length)
  refused := .truncated

/-- The slots up to the first of the wrong length, which is the fault. -/
def ofSlots (header : ScanHeader) (w : Window) : MediaScan :=
  let s := slotReader.series (Record.hasSlot RetirementRecord) rule [] w
  { header := some header
    slots := w.remaining / Record.size RetirementRecord
    retirements := s.items
    fault := s.fault
    trailing := s.rest.remaining }

def ofBytes (bs : Bytes) : MediaScan :=
  match (Record.read (.ofBytes bs) : Except Shortfall (ScanHeader × Window)) with
  | .error shortfall => { fault := some (.truncated shortfall) }
  | .ok (header, w) =>
    if header.length ≠ ScanHeader.parameterLength then
      { fault := some (.scanHeaderLength header.length) }
    else if header.code ≠ 0 then { fault := some (.scanHeaderCode header.code) }
    else ofSlots header w

theorem ofBytes_of_lt {bs : Bytes} (h : bs.length < Record.size ScanHeader) :
    ofBytes bs = { fault := some (.truncated ⟨0, Record.size ScanHeader, bs.length⟩) } := by
  rw [ofBytes, Record.read_of_lt h]
  rfl

theorem ofBytes_of_le {bs : Bytes} (h : Record.size ScanHeader ≤ bs.length) :
    ofBytes bs =
      if (Record.decode bs : ScanHeader).length ≠ ScanHeader.parameterLength then
        { fault := some (.scanHeaderLength (Record.decode bs : ScanHeader).length) }
      else if (Record.decode bs : ScanHeader).code ≠ 0 then
        { fault := some (.scanHeaderCode (Record.decode bs : ScanHeader).code) }
      else ofSlots (Record.decode bs) ((Window.ofBytes bs).advance (Record.size ScanHeader)) := by
  rw [ofBytes, Record.read_of_le h]
  rfl

theorem retirements_ofSlots (header : ScanHeader) (w : Window) :
    (ofSlots header w).retirements =
      ((Record.slots RetirementRecord w.unread).takeWhile
        RetirementRecord.hasRightLength).map Retirement.ofRecord := by
  rw [ofSlots, slotReader, Record.series_eq (by decide) (Record.counts_slotsLeft (by decide)),
    Record.ahead_slotsLeft]
  rfl

theorem fault_ofSlots (header : ScanHeader) (w : Window) :
    (ofSlots header w).fault =
      ((Record.slots RetirementRecord w.unread).dropWhile
        RetirementRecord.hasRightLength).head?.map fun r => .retirementLength r.code r.length := by
  rw [ofSlots, slotReader, Record.series_eq (by decide) (Record.counts_slotsLeft (by decide)),
    Record.ahead_slotsLeft]
  exact Option.map_eq_bind.symm

/-- Bytes after the last slot are worth a message if the list got that far. -/
def messages (scan : MediaScan) : List Message :=
  if scan.fault.isNone && scan.trailing ≠ 0 then
    [⟨.debug, .subpage, decimal scan.trailing ++ " bytes left after retirement records"⟩]
  else []

def headerReport (slots : Nat) (header : ScanHeader) : Report :=
  [Report.field 2 "Power On Minutes" (decimal header.powerOnMinutes),
    Report.field 2 "BMS Status"
      (hex header.status ++ " (" ++ header.scanStatus.shown ++ ")"),
    Report.field 2 "Number of BMS" (decimal header.scanCount),
    Report.field 2 "Progress Current BMS" (decimal header.progress),
    Report.field 2 "BMS retirements" (decimal slots)]

def report (scan : MediaScan) : Report :=
  ["Background Media Scan Subpage:"] ++
    (scan.header.map (headerReport scan.slots)).getD [] ++
    scan.retirements.flatMap Retirement.report ++
    (scan.fault.map Anomaly.message).toList

end MediaScan

end DriveLog.Hgst
