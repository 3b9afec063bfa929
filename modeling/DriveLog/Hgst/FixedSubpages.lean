import DriveLog.Report
import DriveLog.Window.Layout

/-! The subpages of one fixed record each: temperature history, performance counters
and firmware downloads. -/

namespace DriveLog.Hgst

open Text

/-! ## Temperature history -/

structure TemperatureHistory where
  current : Nat
  reference : Nat
  max : Nat
  min : Nat
  maxTempTime : Nat
  overTempDuration : Nat
  minTempTime : Nat
deriving DecidableEq, Repr

instance : Record TemperatureHistory where
  layout := [.uint8, .uint8, .uint8, .uint8, .uint32, .uint32, .uint32]
  ofFields := fun (current, reference, max, min, maxTempTime, overTempDuration,
      minTempTime, ()) =>
    ⟨current, reference, max, min, maxTempTime, overTempDuration, minTempTime⟩
  fields h := (h.current, h.reference, h.max, h.min, h.maxTempTime, h.overTempDuration,
    h.minTempTime, ())

/-- A count of minutes as hours, minutes and seconds; there are no days. -/
def clock (minutes : Nat) : String :=
  decimal (minutes / 60) ++ ":" ++ padLeft 2 '0' (decimal (minutes % 60)) ++ ":00"

def TemperatureHistory.report (h : TemperatureHistory) : Report :=
  [degrees "Current Temperature" h.current,
    degrees "Reference Temperature" h.reference,
    degrees "Maximum Temperature" h.max,
    degrees "Minimum Temperature" h.min,
    Report.field 2 "Max Temperature Time" (clock h.maxTempTime),
    Report.field 2 "Over Temperature Duration" (clock h.overTempDuration),
    Report.field 2 "Min Temperature Time" (clock h.minTempTime)]
where
  degrees (label : String) (n : Nat) : String := Report.field 2 label (decimal n ++ " C")

/-! ## Performance counters -/

structure PerformanceCounters where
  counters : List Nat
deriving DecidableEq, Repr

instance : Record PerformanceCounters where
  layout := [.field (.array 16 (.number 8))]
  ofFields := fun (counters, ()) => ⟨counters⟩
  fields p := (p.counters, ())

namespace PerformanceCounters

def names : List String :=
  ["Host Read Commands",
    "Host Read Blocks",
    "Host Cache Read Hits Commands",
    "Host Cache Read Hits Blocks",
    "Host Read Commands Stalled",
    "Host Write Commands",
    "Host Write Blocks",
    "Host Write Odd Start Commands",
    "Host Write Odd End Commands",
    "Host Write Commands Stalled",
    "NAND Read Commands",
    "NAND Read Blocks",
    "NAND Write Commands",
    "NAND Write Blocks",
    "NAND Read Before Writes",
    "Reserved"]

def named (p : PerformanceCounters) : List (String × Nat) := names.zip p.counters

def report (p : PerformanceCounters) : Report :=
  p.named.map fun (name, n) => Report.field 2 name (decimal n)

end PerformanceCounters

/-! ## Firmware downloads -/

structure FirmwareLoad where
  downloads : Nat
deriving DecidableEq, Repr

instance : Record FirmwareLoad where
  layout := [.uint32]
  ofFields := fun (downloads, ()) => ⟨downloads⟩
  fields f := (f.downloads, ())

def FirmwareLoad.report (f : FirmwareLoad) : Report :=
  [Report.field 2 "Firmware Downloads" (decimal f.downloads)]

end DriveLog.Hgst
