import DriveLog.Hgst.FixedSubpages
import DriveLog.Hgst.MediaScan
import DriveLog.Hgst.ParameterList
import DriveLog.Hgst.SelfTest

/-! Subpages of the extra info page. The subtype says which decoder reads the payload.
Decoding a subpage never fails: what went wrong is kept beside what could be read. -/

namespace DriveLog.Hgst

open Text

/-- The operations whose errors are counted, each in a subpage of its own. -/
inductive MediaOperation where
  | write
  | read
  | verify
  | erase
deriving DecidableEq, Repr

namespace MediaOperation

def heading : MediaOperation → String
  | write => "Write Errors Subpage:"
  | read => "Read Errors Subpage:"
  | verify => "Verify Errors Subpage:"
  | erase => "Erase Errors Subpage:"

/-- The parameters that every operation counts, with its own word for a retry. -/
def commonLabels (retries : String) : LabelTable :=
  [(0x0000, "Corrected Without Delay"),
    (0x0001, "Corrected Maybe Delayed"),
    (0x0002, retries),
    (0x0003, "Errors Corrected"),
    (0x0004, "Correct Algorithm Used"),
    (0x0005, "Bytes Processed"),
    (0x0006, "Uncorrected Errors")]

def labels : MediaOperation → LabelTable
  | write => commonLabels "Re-Writes" ++
    [(0x8000, "Flash Write Commands"),
      (0x8001, "HGST Special")]
  | read => commonLabels "Re-Reads" ++
    [(0x8000, "Flash Read Commands"),
      (0x8001, "XOR Recovered"),
      (0x8002, "Total Corrected Bits")]
  | verify => commonLabels "Re-Reads" ++
    [(0x8000, "Commands Processed")]
  | erase => commonLabels "Re-Erase" ++
    [(0x8000, "Flash Erase Commands"),
      (0x8001, "Mfg Defect Count"),
      (0x8002, "Grown Defect Count"),
      (0x8003, "Erase Count -- User"),
      (0x8004, "Erase Count -- System")]

end MediaOperation

inductive Subpage where
  | errorCounters (operation : MediaOperation) (list : ParameterList)
  | selfTest (log : SelfTestLog)
  | mediaScan (scan : MediaScan)
  /-- Erase counts are not decoded; only their length is known. -/
  | eraseCounts (length : Nat)
  | temperatureHistory (history : Except Anomaly TemperatureHistory)
  /-- Performance counters of the kind that the subpage's reserved byte gives. -/
  | performance (kind : Nat) (counters : Except Anomaly PerformanceCounters)
  | firmwareLoad (load : Except Anomaly FirmwareLoad)
  | unhandled (subtype : Nat)

namespace Subpage

/-- A payload of one fixed record. -/
def record {α : Type} [Record α] (payload : Bytes) : Except Anomaly α :=
  (Record.ofBytes? payload).mapError Anomaly.truncated

def ofPayload (subtype reserved : Nat) (payload : Bytes) : Subpage :=
  match subtype with
  | 0x02 => counters .write
  | 0x03 => counters .read
  | 0x05 => counters .verify
  | 0x10 => .selfTest (.ofBytes payload)
  | 0x15 => .mediaScan (.ofBytes payload)
  | 0x30 => counters .erase
  | 0x31 => .eraseCounts payload.length
  | 0x32 => .temperatureHistory (record payload)
  | 0x37 => .performance reserved (record payload)
  | 0x38 => .firmwareLoad (record payload)
  | _ => .unhandled subtype
where
  counters (operation : MediaOperation) : Subpage :=
    .errorCounters operation (.ofBytes operation.labels payload)

def messages : Subpage → List Message
  | errorCounters _ list => list.messages
  | mediaScan scan => scan.messages
  | _ => []

def report : Subpage → Report
  | errorCounters operation list => [operation.heading] ++ list.report
  | selfTest log => log.report
  | mediaScan scan => scan.report
  | eraseCounts length =>
    ["Erase Counts Subpage: not decoded (subtype 0x31, " ++ decimal length ++ " bytes)"]
  | temperatureHistory history =>
    ["Temperature History:"] ++ orAnomaly TemperatureHistory.report history
  | performance kind counters =>
    ["SSD Performance Subpage Type " ++ decimal kind ++ ":"] ++
      orAnomaly PerformanceCounters.report counters
  | firmwareLoad load =>
    ["Firmware Load Subpage:"] ++ orAnomaly FirmwareLoad.report load
  | unhandled subtype => ["No handler for page type " ++ hex subtype]
where
  orAnomaly {α : Type} (report : α → Report) : Except Anomaly α → Report
    | .ok a => report a
    | .error anomaly => ["  " ++ anomaly.message]

end Subpage

end DriveLog.Hgst
