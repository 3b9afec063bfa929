import DriveLog.Report
import DriveLog.Window.Layout

/-! The firmware slot page: seven slots of eight revision bytes each, and one byte that
says which slot runs and which one is to run after the next reset. -/

namespace DriveLog

open Text

/-- How the eight bytes of a revision are shown. -/
inductive Revision where
  | empty
  | text (s : String)
  | binary (n : Nat)
deriving DecidableEq, Repr

namespace Revision

def isPrintable (b : UInt8) : Bool := 0x20 ≤ b && b ≤ 0x7e

/-- The bytes without the zeros that end them. -/
def trim (bs : Bytes) : Bytes := (bs.reverse.dropWhile (· = 0)).reverse

/-- Zero bytes alone are an empty slot. Text may end in zeros but not hold any. -/
def ofBytes (bs : Bytes) : Revision :=
  let text := trim bs
  if text.isEmpty then .empty
  else if text.all isPrintable then .text (String.ofList (text.map Char.ofUInt8))
  else .binary (Bytes.ofLE bs)

def shown : Revision → String
  | empty => "Empty"
  | text s => s
  | binary n => hexDigits 16 n

end Revision

structure FirmwareSlots where
  activeInfo : Nat
  /-- The revision bytes of each slot. -/
  revisions : List Bytes
deriving DecidableEq, Repr

instance : Record FirmwareSlots where
  layout := [.uint8, .gap 7, .field (.array 7 (.bytes 8)), .gap 448]
  ofFields := fun (activeInfo, revisions, ()) => ⟨activeInfo, revisions⟩
  fields f := (f.activeInfo, f.revisions, ())

namespace FirmwareSlots

/-- The slot the running firmware was loaded from. -/
def activeSlot (f : FirmwareSlots) : Nat := f.activeInfo % 8

/-- The slot that runs after the next reset, or zero if none has been chosen. -/
def nextSlot (f : FirmwareSlots) : Nat := f.activeInfo / 0x10 % 8

/-- The revisions with their slot numbers, counted from one. -/
def slots (f : FirmwareSlots) : List (Nat × Revision) :=
  (f.revisions.zipIdx 1).map fun (bs, number) => (number, Revision.ofBytes bs)

def slotLine (f : FirmwareSlots) (number : Nat) (revision : Revision) : String :=
  "Slot " ++ decimal number ++ ": " ++
    match revision with
    | .empty => revision.shown
    | _ => (if f.activeSlot = number then "[Active] " else "[Inactive] ") ++ revision.shown

def report (f : FirmwareSlots) : Report :=
  Report.heading "Firmware Slot Log" ++
    (f.slots.map fun (number, revision) => f.slotLine number revision) ++
    if f.nextSlot = 0 then [] else ["Next reset slot: " ++ decimal f.nextSlot]

end FirmwareSlots

end DriveLog
