import DriveLog.Text.Digits

/-! A read that would have left its window. -/

namespace DriveLog

open Text

/-- More bytes were asked for than the window has left. -/
structure Shortfall where
  /-- The page offset at which the read was to begin. -/
  offset : Nat
  needed : Nat
  available : Nat
deriving DecidableEq, Repr

def Shortfall.message (s : Shortfall) : String :=
  "truncated at offset " ++ decimal s.offset ++ ": need " ++ decimal s.needed ++
    " bytes, " ++ decimal s.available ++ " left"

end DriveLog
