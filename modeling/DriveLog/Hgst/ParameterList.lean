import DriveLog.Label
import DriveLog.Message
import DriveLog.Report
import DriveLog.Window.Walk

/-! Parameter lists. A parameter is a two byte code, a byte of flags that is ignored, a
byte that gives the length of its value, and the value, of which the low eight bytes
count. The parameters of a list follow one another until the list is used up. -/

namespace DriveLog.Hgst

open Text

structure Parameter where
  code : Nat
  label : Label
  value : Nat
deriving DecidableEq, Repr

namespace Parameter

def read (table : LabelTable) : Reader Parameter := do
  let code ← Reader.number 2
  Reader.skip 1
  let length ← Reader.number 1
  let value ← Reader.take length
  return { code, label := table.label code, value := (Bytes.lowWord value).toNat }

/-- A parameter takes four bytes at least. -/
theorem remaining_of_read {table : LabelTable} {w w' : Window} {p : Parameter}
    (h : read table w = .ok (p, w')) : w'.remaining + 4 ≤ w.remaining := by
  simp only [read, Reader.bind_eq_ok_iff, Reader.number_eq_ok_iff, Reader.skip_eq_ok_iff,
    Reader.take_eq_ok_iff, Reader.pure_eq_ok_iff] at h
  obtain ⟨_, _, ⟨_, _, rfl⟩, _, _, ⟨_, rfl⟩, _, _, ⟨_, _, rfl⟩, _, _, ⟨_, _, rfl⟩, _, rfl⟩ := h
  simp only [Window.remaining_advance] at *
  omega

def reader (table : LabelTable) : ItemReader Parameter where
  read := read table
  remaining_lt h := by
    have := remaining_of_read h
    omega

def line (p : Parameter) : String := Report.field 2 p.label.text (decimal p.value)

end Parameter

structure ParameterList where
  parameters : List Parameter
  /-- How many bytes the whole parameters cover. -/
  consumed : Nat
  /-- Set if the last parameter ran past the list. -/
  fault : Option Shortfall
deriving DecidableEq, Repr

namespace ParameterList

def ofBytes (table : LabelTable) (bs : Bytes) : ParameterList :=
  let walk := (Parameter.reader table).walk (Window.ofBytes bs)
  { parameters := walk.items, consumed := walk.rest.offset, fault := walk.fault }

def messages (list : ParameterList) : List Message :=
  match list.fault with
  | none => []
  | some fault =>
    [⟨.warn, .parameterList, "parameter at offset " ++ decimal list.consumed ++
      " overruns its list: " ++ fault.message⟩]

def report (list : ParameterList) : Report :=
  list.parameters.map Parameter.line ++
    match list.fault with
    | none => []
    | some fault => ["  Parameter list corrupt: " ++ fault.message]

end ParameterList

end DriveLog.Hgst
