import DriveLog.Text.Digits

/-! Reports. A report is a list of lines; as a text each line ends in a newline. Lines
with a label put the value at a column. -/

namespace DriveLog

open Text

abbrev Report := List String

namespace Report

/-- One line as it is written out. -/
def written (line : String) : String := line ++ "\n"

def text (r : Report) : String := String.join (r.map written)

/-- A label filled to `width` columns, then the value. -/
def column (width : Nat) (label value : String) : String := padRight width label ++ value

/-- An indented label filled to 32 columns, a colon, then the value. -/
def field (indent : Nat) (label value : String) : String :=
  column 32 (spaces indent ++ label) (": " ++ value)

/-- A heading underlined as far as it goes. -/
def heading (title : String) : Report := [title, String.ofList (List.replicate title.length '=')]

end Report

end DriveLog
