import DriveLog.Bytes.Slots
import DriveLog.Report

/-! Hex dumps. Sixteen bytes stand on a row behind their offset. The rows at the end
that hold zeros alone are folded into one line with a star. -/

namespace DriveLog.HexDump

open Text

def rowSize : Nat := 16

/-- The number of bytes up to the last one that is not zero. -/
def usedLength (bs : Bytes) : Nat := (bs.reverse.dropWhile (· = 0)).length

/-- The rows that are not folded, each with its offset. -/
def rows (bs : Bytes) : List (Nat × Bytes) :=
  (Bytes.pieces rowSize ((usedLength bs + rowSize - 1) / rowSize) bs).mapIdx fun i row =>
    (rowSize * i, row)

def rowLine (offset : Nat) (row : Bytes) : String :=
  hexWord 4 offset ++ ":" ++ String.join (row.map fun b => " " ++ hexDigits 2 b.toNat)

/-- The dump under a title that names the page and the number of bytes. -/
def report (title : String) (page : UInt8) (bs : Bytes) : Report :=
  [title ++ " (page " ++ hexWord 2 page.toNat ++ "), " ++ decimal bs.length ++ " bytes"] ++
    ((rows bs).map fun (offset, row) => rowLine offset row) ++
    if rowSize * (rows bs).length < bs.length then ["*"] else []

end DriveLog.HexDump
