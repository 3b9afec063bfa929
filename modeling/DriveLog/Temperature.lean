import DriveLog.Text.Rounded

/-! Temperatures. Drives report whole Kelvin; reports give them in Celsius and
Fahrenheit too, computed in binary64 and shown with two places. -/

namespace DriveLog

open Text

structure Temperature where
  kelvin : Nat
deriving DecidableEq, Repr

namespace Temperature

def celsius (t : Temperature) : Float := Float.ofNat t.kelvin - 273.15

def fahrenheit (t : Temperature) : Float := Float.ofNat t.kelvin * 9.0 / 5.0 - 459.67

def text (t : Temperature) : String :=
  decimal t.kelvin ++ " K, " ++ fixedFloat 2 t.celsius ++ " C, " ++
    fixedFloat 2 t.fahrenheit ++ " F"

end Temperature

end DriveLog
