import DriveLog.Hgst.Anomaly
import DriveLog.Report
import DriveLog.Window.Series

/-! The self test subpage: one slot of twenty bytes for each test. A slot whose length
byte is zero ends the log, and any other length but the right one is an anomaly. -/

namespace DriveLog.Hgst

open Text

structure SelfTestResult where
  code : Nat
  flags : Nat
  length : Nat
  results : Nat
  number : Nat
  powerOnHours : Nat
  lba : Nat
  sense : Nat
  senseCode : Nat
  senseQualifier : Nat
  vendorDetail : Nat
deriving DecidableEq, Repr

instance : Record SelfTestResult where
  layout := [.uint16, .uint8, .uint8, .uint8, .uint8, .uint16, .uint64, .uint8, .uint8,
    .uint8, .uint8]
  ofFields := fun (code, flags, length, results, number, powerOnHours, lba, sense,
      senseCode, senseQualifier, vendorDetail, ()) =>
    ⟨code, flags, length, results, number, powerOnHours, lba, sense, senseCode,
      senseQualifier, vendorDetail⟩
  fields r := (r.code, r.flags, r.length, r.results, r.number, r.powerOnHours, r.lba,
    r.sense, r.senseCode, r.senseQualifier, r.vendorDetail, ())

namespace SelfTestResult

/-- The length byte of a slot in use. -/
def parameterLength : Nat := 0x10

def inUse (r : SelfTestResult) : Bool := r.length = parameterLength

theorem inUse_iff {r : SelfTestResult} : r.inUse = true ↔ r.length = 0x10 := decide_eq_true_iff

def outcome (r : SelfTestResult) : Nat := r.results % 0x10

def testCode (r : SelfTestResult) : Nat := r.results / 0x20 % 8

def senseKey (r : SelfTestResult) : Nat := r.sense % 0x10

def report (r : SelfTestResult) : Report :=
  [Report.field 2 "Recent Test" (decimal r.code),
    item "Self-Test Results" (hexWord 1 r.outcome),
    item "Self-Test Code" (hexWord 1 r.testCode),
    item "Self-Test Number" (hexWord 1 r.number),
    item "Total Power On Hrs" (decimal r.powerOnHours),
    item "LBA" (hexWord 1 r.lba ++ " (" ++ decimal r.lba ++ ")"),
    item "Sense Key" (hexWord 1 r.senseKey),
    item "Additional Sense Code" (hexWord 1 r.senseCode),
    item "Additional Sense Qualifier" (hexWord 1 r.senseQualifier),
    item "Vendor Specific Detail" (hexWord 1 r.vendorDetail)]
where
  item (label value : String) : String := Report.field 4 label value

end SelfTestResult

structure SelfTestLog where
  results : List SelfTestResult
  fault : Option Anomaly
deriving DecidableEq, Repr

namespace SelfTestLog

/-- What the first slot not in use says about the log. -/
def faultOf (slot : SelfTestResult) : Option Anomaly :=
  if slot.length = 0 then none else some (.selfTestLength slot.length)

def slotReader : ItemReader SelfTestResult := Record.reader (by decide)

/-- The log goes on with slots in use. -/
def rule : SeriesRule SelfTestResult SelfTestResult Anomaly where
  keep := SelfTestResult.inUse
  value := id
  faultOf := faultOf
  refused := .truncated

/-- The log read slot by slot. -/
def ofBytes (bs : Bytes) : SelfTestLog :=
  let s := slotReader.series (Record.hasSlot SelfTestResult) rule [] (.ofBytes bs)
  { results := s.items, fault := s.fault }

/-- The first slot not in use ends the log, and is all that can be wrong with it. -/
theorem ofBytes_eq (bs : Bytes) :
    ofBytes bs =
      { results := (Record.slots SelfTestResult bs).takeWhile SelfTestResult.inUse
        fault := ((Record.slots SelfTestResult bs).dropWhile SelfTestResult.inUse).head?.bind
          faultOf } := by
  rw [ofBytes, slotReader, Record.series_eq (by decide) (Record.counts_slotsLeft (by decide)),
    Record.ahead_slotsLeft]
  simp only [rule, List.reverse_nil, List.nil_append, List.map_id, Window.unread_ofBytes]

def report (log : SelfTestLog) : Report :=
  ["Self Test Subpage:"] ++ log.results.flatMap SelfTestResult.report ++
    (log.fault.map Anomaly.message).toList

end SelfTestLog

end DriveLog.Hgst
