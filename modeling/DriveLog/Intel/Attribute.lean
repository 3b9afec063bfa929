import DriveLog.Label
import DriveLog.Report
import DriveLog.Text.Rounded
import DriveLog.Window.Series

/-! Intel's additional SMART attributes. Attributes of twelve bytes start in the first
150 bytes of the page, and a zero key ends them. Most raw values are one 48 bit number;
a few are divided into parts. -/

namespace DriveLog.Intel

open Text

structure Attribute where
  key : Nat
  normalized : Nat
  /-- The six bytes of the raw value. -/
  rawBytes : Bytes
deriving DecidableEq, Repr

instance : Record Attribute where
  layout := [.uint8, .gap 2, .uint8, .gap 1, .field (.bytes 6), .gap 1]
  ofFields := fun (key, normalized, rawBytes, ()) => ⟨key, normalized, rawBytes⟩
  fields a := (a.key, a.normalized, a.rawBytes, ())

namespace Attribute

def names : LabelTable :=
  [(0xab, "Program Fail Count"),
    (0xac, "Erase Fail Count"),
    (0xad, "Wear Leveling Count"),
    (0xb8, "End to End Error Count"),
    (0xc7, "CRC Error Count"),
    (0xe2, "Timed: Media Wear"),
    (0xe3, "Timed: Host Read %"),
    (0xe4, "Timed: Elapsed Time"),
    (0xea, "Thermal Throttle Status"),
    (0xf0, "Retry Buffer Overflows"),
    (0xf3, "PLL Lock Loss Count"),
    (0xf4, "NAND Bytes Written"),
    (0xf5, "Host Bytes Written")]

def label (a : Attribute) : Label := names.label a.key

/-- The 48 bit raw value. -/
def raw (a : Attribute) : Nat := (Bytes.toWord a.rawBytes).toNat

/-- The part of the raw value of `width` bytes from byte `start` on. -/
def rawPart (a : Attribute) (start width : Nat) : Nat :=
  Bytes.ofLE ((a.rawBytes.drop start).take width)

/-- The raw value as the attribute's key says to read it. -/
def rawText (a : Attribute) : String :=
  match a.key with
  | 0xad =>
    "min: " ++ decimal (a.rawPart 0 2) ++ " max: " ++ decimal (a.rawPart 2 2) ++
      " ave: " ++ decimal (a.rawPart 4 2)
  -- Media wear counts in units of 1/1024 percent.
  | 0xe2 => fixed 3 a.raw 1024 ++ "%"
  | 0xea => decimal (a.rawPart 0 1) ++ "% " ++ decimal (a.rawPart 1 4) ++ " times"
  | _ => decimal a.raw

def line (a : Attribute) : String :=
  Report.field 0 a.label.text (padLeft 3 ' ' (decimal a.normalized) ++ " " ++ a.rawText)

end Attribute

structure AdditionalSmart where
  attributes : List Attribute
deriving DecidableEq, Repr

namespace AdditionalSmart

/-- The attributes start before this page offset. -/
def areaSize : Nat := 150

/-- The slots that start before the end of the attribute area. -/
def maxAttributes : Nat := (areaSize + Record.size Attribute - 1) / Record.size Attribute

/-- The bytes that hold attributes; the last slot ends after the attribute area. -/
def slotBytes (bs : Bytes) : Bytes := bs.take (Record.size Attribute * maxAttributes)

/-- An attribute that is there; a key of zero stands behind the last one. -/
def isPresent (a : Attribute) : Bool := a.key ≠ 0

/-- The attributes by their slots, to which no byte string is too short. -/
def ofBytes (bs : Bytes) : AdditionalSmart where
  attributes := ((Bytes.slots (Record.size Attribute) (slotBytes bs)).map
    Record.decode).takeWhile isPresent

def attributeReader : ItemReader Attribute := Record.reader (by decide)

/-- Whether the next attribute would start in the area, and a whole slot is left. -/
def hasSlot (w : Window) : Bool :=
  w.offset < areaSize && Record.size Attribute ≤ w.remaining

/-- The attributes read slot by slot. -/
def read : Reader AdditionalSmart := fun w => do
  let (attributes, w) ← attributeReader.series? hasSlot isPresent w
  return (⟨attributes⟩, w)

def ofBytes? (bs : Bytes) : Except Shortfall AdditionalSmart :=
  (read (.ofBytes bs)).map Prod.fst

theorem size_attribute : Record.size Attribute = 12 := by decide

/-- How many slots may still be looked at: the whole ones that start in the area. -/
def slotsLeft (w : Window) : Nat := min (w.remaining / 12) ((areaSize - w.offset + 11) / 12)

theorem counts_slots : Record.Counts Attribute hasSlot slotsLeft where
  more_iff w := by
    simp only [hasSlot, Bool.and_eq_true, decide_eq_true_eq]
    simp only [slotsLeft, size_attribute, areaSize]
    omega
  fits w h := by
    simp only [slotsLeft] at h
    rw [size_attribute]
    omega
  advance w h := by
    simp only [slotsLeft, areaSize, size_attribute, Window.remaining_advance,
      Window.offset_advance] at h ⊢
    omega

/-- No byte string is refused. -/
theorem ofBytes?_eq (bs : Bytes) : ofBytes? bs = .ok (ofBytes bs) := by
  have hcount : slotsLeft (.ofBytes bs) = (slotBytes bs).length / Record.size Attribute := by
    simp only [slotsLeft, slotBytes, maxAttributes, areaSize, size_attribute,
      Window.remaining_ofBytes, Window.offset_ofBytes, List.length_take]
    omega
  have hpieces : Bytes.pieces (Record.size Attribute) (slotsLeft (.ofBytes bs)) bs =
      Bytes.slots (Record.size Attribute) (slotBytes bs) := by
    rw [hcount, Bytes.slots, slotBytes]
    refine (Bytes.pieces_take ?_ bs).symm
    refine Nat.le_trans (Nat.mul_div_le _ _) ?_
    rw [List.length_take]
    exact Nat.min_le_left _ _
  rw [ofBytes?, read, attributeReader, Record.series?_eq (by decide) counts_slots, Record.ahead,
    Window.unread_ofBytes, hpieces]
  rfl

def report (log : AdditionalSmart) : Report :=
  Report.heading "Additional SMART Data Log" ++ log.attributes.map Attribute.line

end AdditionalSmart

end DriveLog.Intel
