import DriveLog.Text.Padding

/-! Labels for the numeric keys of vendor pages. A key that its table does not name is
labelled by its own value. -/

namespace DriveLog

open Text

abbrev LabelTable := List (Nat × String)

inductive Label where
  | known (name : String)
  | unknown (key : Nat)
deriving DecidableEq, Repr

namespace Label

def isKnown : Label → Bool
  | known _ => true
  | unknown _ => false

def text : Label → String
  | known name => name
  | unknown key => "Attribute " ++ hexWord 1 key

end Label

/-- The first name the table gives the key. -/
def LabelTable.label (table : LabelTable) (key : Nat) : Label :=
  match table.lookup key with
  | some name => .known name
  | none => .unknown key

end DriveLog
