import DriveLog.Shortfall

/-! What can be wrong inside a vendor page. An anomaly ends the structure it was found
in, stands in the report, and leaves everything around that structure alone. -/

namespace DriveLog.Hgst

open Text

inductive Anomaly where
  /-- The subpage at this page offset claims more than its list has left. -/
  | subpageOverrun (offset : Nat)
  | selfTestLength (length : Nat)
  | scanHeaderLength (length : Nat)
  | scanHeaderCode (code : Nat)
  | retirementLength (code length : Nat)
  | truncated (shortfall : Shortfall)
deriving DecidableEq, Repr

def Anomaly.message : Anomaly → String
  | subpageOverrun offset =>
    "Ooops! Off the end of the list (subpage at offset " ++ decimal offset ++ ")"
  | selfTestLength length => "Bad length for self test report (" ++ hexWord 1 length ++ ")"
  | scanHeaderLength length =>
    "Bad length for background scan header (" ++ hexWord 1 length ++ ")"
  | scanHeaderCode code => "Expected code 0, found code " ++ hexWord 1 code
  | retirementLength code length =>
    "Bad length parameter " ++ hexWord 1 length ++ " for retirement " ++ hexWord 1 code
  | truncated shortfall => shortfall.message

end DriveLog.Hgst
