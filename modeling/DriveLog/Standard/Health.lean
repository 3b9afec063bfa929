import DriveLog.Counter
import DriveLog.Report
import DriveLog.Temperature
import DriveLog.Window.Layout

/-! The health page: the drive's warnings, wear, lifetime counters and temperature
sensors. A sensor that reads zero is absent. -/

namespace DriveLog

open Text

/-- The warning bits of the health page. -/
structure CriticalWarning where
  byte : Nat
deriving DecidableEq, Repr

namespace CriticalWarning

def availableSpare (w : CriticalWarning) : Nat := w.byte % 2

def temperature (w : CriticalWarning) : Nat := w.byte / 2 % 2

def deviceReliability (w : CriticalWarning) : Nat := w.byte / 4 % 2

def readOnly (w : CriticalWarning) : Nat := w.byte / 8 % 2

def volatileMemoryBackup (w : CriticalWarning) : Nat := w.byte / 0x10 % 2

end CriticalWarning

structure Health where
  criticalWarning : Nat
  temperature : Nat
  availableSpare : Nat
  availableSpareThreshold : Nat
  percentageUsed : Nat
  dataUnitsRead : Nat
  dataUnitsWritten : Nat
  hostReadCommands : Nat
  hostWriteCommands : Nat
  controllerBusyTime : Nat
  powerCycles : Nat
  powerOnHours : Nat
  unsafeShutdowns : Nat
  mediaErrors : Nat
  errorLogEntries : Nat
  warningTempTime : Nat
  errorTempTime : Nat
  /-- The readings of the eight sensors in Kelvin. -/
  tempSensors : List Nat
deriving DecidableEq, Repr

instance : Record Health where
  layout := [.uint8, .uint16, .uint8, .uint8, .uint8, .gap 26,
    .uint128, .uint128, .uint128, .uint128, .uint128,
    .uint128, .uint128, .uint128, .uint128, .uint128,
    .uint32, .uint32, .field (.array 8 (.number 2)), .gap 296]
  ofFields := fun (criticalWarning, temperature, availableSpare, availableSpareThreshold,
      percentageUsed, dataUnitsRead, dataUnitsWritten, hostReadCommands, hostWriteCommands,
      controllerBusyTime, powerCycles, powerOnHours, unsafeShutdowns, mediaErrors,
      errorLogEntries, warningTempTime, errorTempTime, tempSensors, ()) =>
    ⟨criticalWarning, temperature, availableSpare, availableSpareThreshold,
      percentageUsed, dataUnitsRead, dataUnitsWritten, hostReadCommands, hostWriteCommands,
      controllerBusyTime, powerCycles, powerOnHours, unsafeShutdowns, mediaErrors,
      errorLogEntries, warningTempTime, errorTempTime, tempSensors⟩
  fields h := (h.criticalWarning, h.temperature, h.availableSpare,
    h.availableSpareThreshold, h.percentageUsed, h.dataUnitsRead, h.dataUnitsWritten,
    h.hostReadCommands, h.hostWriteCommands, h.controllerBusyTime, h.powerCycles,
    h.powerOnHours, h.unsafeShutdowns, h.mediaErrors, h.errorLogEntries,
    h.warningTempTime, h.errorTempTime, h.tempSensors, ())

namespace Health

def warning (h : Health) : CriticalWarning := ⟨h.criticalWarning⟩

/-- The sensors that gave a reading, each with its number counted from one. -/
def sensors (h : Health) : List (Nat × Temperature) :=
  (h.tempSensors.zipIdx 1).filterMap fun (kelvin, number) =>
    if kelvin = 0 then none else some (number, ⟨kelvin⟩)

/-- The lifetime counters under the names the report gives them. -/
def counters (h : Health) : List (String × Nat) :=
  [("Data units (512,000 byte) read", h.dataUnitsRead),
    ("Data units written", h.dataUnitsWritten),
    ("Host read commands", h.hostReadCommands),
    ("Host write commands", h.hostWriteCommands),
    ("Controller busy time (minutes)", h.controllerBusyTime),
    ("Power cycles", h.powerCycles),
    ("Power on hours", h.powerOnHours),
    ("Unsafe shutdowns", h.unsafeShutdowns),
    ("Media errors", h.mediaErrors),
    ("No. error info log entries", h.errorLogEntries)]

def report (h : Health) : Report :=
  Report.heading "SMART/Health Information Log" ++
    [item "Critical Warning State" (hexWord 2 h.criticalWarning),
      item " Available spare" (decimal h.warning.availableSpare),
      item " Temperature" (decimal h.warning.temperature),
      item " Device reliability" (decimal h.warning.deviceReliability),
      item " Read only" (decimal h.warning.readOnly),
      item " Volatile memory backup" (decimal h.warning.volatileMemoryBackup),
      item "Temperature" (Temperature.mk h.temperature).text,
      item "Available spare" (decimal h.availableSpare),
      item "Available spare threshold" (decimal h.availableSpareThreshold),
      item "Percentage used" (decimal h.percentageUsed)] ++
    (h.counters.map fun (name, n) => item name (Counter.ofNat .full n).numeral) ++
    [item "Warning Temp Composite Time" (decimal h.warningTempTime),
      item "Error Temp Composite Time" (decimal h.errorTempTime)] ++
    (h.sensors.map fun (number, t) =>
      item ("Temperature Sensor " ++ decimal number) t.text)
where
  item (name value : String) : String := Report.column 32 (name ++ ":") value

end Health

end DriveLog
