import DriveLog.Report
import DriveLog.Temperature
import DriveLog.Window.Layout

/-! Intel's temperature statistics. Every field has 64 bits, of which a temperature uses
the low sixteen. -/

namespace DriveLog.Intel

open Text

structure TemperatureStats where
  current : Nat
  overtempFlagLast : Nat
  overtempFlagLife : Nat
  maxTemp : Nat
  minTemp : Nat
  maxOperatingTemp : Nat
  minOperatingTemp : Nat
  estimatedOffset : Nat
deriving DecidableEq, Repr

instance : Record TemperatureStats where
  layout := [.uint64, .uint64, .uint64, .uint64, .uint64, .gap 40, .uint64, .uint64, .uint64]
  ofFields := fun (current, overtempFlagLast, overtempFlagLife, maxTemp, minTemp,
      maxOperatingTemp, minOperatingTemp, estimatedOffset, ()) =>
    ⟨current, overtempFlagLast, overtempFlagLife, maxTemp, minTemp, maxOperatingTemp,
      minOperatingTemp, estimatedOffset⟩
  fields s := (s.current, s.overtempFlagLast, s.overtempFlagLife, s.maxTemp, s.minTemp,
    s.maxOperatingTemp, s.minOperatingTemp, s.estimatedOffset, ())

namespace TemperatureStats

def report (s : TemperatureStats) : Report :=
  Report.heading "Intel Temperature Log" ++
    [item "Current:" (kelvin s.current),
      item "Overtemp Last Flags" (hexWord 1 s.overtempFlagLast),
      item "Overtemp Lifetime Flags" (hexWord 1 s.overtempFlagLife),
      item "Max Temperature" (kelvin s.maxTemp),
      item "Min Temperature" (kelvin s.minTemp),
      item "Max Operating Temperature" (kelvin s.maxOperatingTemp),
      item "Min Operating Temperature" (kelvin s.minOperatingTemp),
      item "Estimated Temperature Offset:" (decimal s.estimatedOffset ++ " C/K")]
where
  item (label value : String) : String := Report.column 32 label value
  kelvin (n : Nat) : String := (Temperature.mk (n % 0x10000)).text

end TemperatureStats

end DriveLog.Intel
