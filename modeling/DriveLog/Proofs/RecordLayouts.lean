import DriveLog.Hgst.FixedSubpages
import DriveLog.Hgst.MediaScan
import DriveLog.Hgst.SelfTest
import DriveLog.Intel.Attribute
import DriveLog.Intel.Temperature
import DriveLog.Standard.ErrorLog
import DriveLog.Standard.FirmwareSlots
import DriveLog.Standard.Health
import DriveLog.Window.Places

/-! The records and the bytes they are made of. Every record has its fields at fixed byte
offsets. One check of its size makes its reading whole or nothing: behind the check no
field can be refused, and a refused record leaves the window where it was. -/

namespace DriveLog

/-! ## Fields by byte offset -/

def ErrorEntry.fieldsOf (bs : Bytes) : ErrorEntry where
  errorCount := bs.numberAt 0 8
  submissionQueue := bs.numberAt 8 2
  commandId := bs.numberAt 10 2
  status := bs.numberAt 12 2
  errorLocation := bs.numberAt 14 2
  lba := bs.numberAt 16 8
  namespaceId := bs.numberAt 24 4
  vendorSpecific := bs.numberAt 28 1

def Health.fieldsOf (bs : Bytes) : Health where
  criticalWarning := bs.numberAt 0 1
  temperature := bs.numberAt 1 2
  availableSpare := bs.numberAt 3 1
  availableSpareThreshold := bs.numberAt 4 1
  percentageUsed := bs.numberAt 5 1
  dataUnitsRead := bs.numberAt 32 16
  dataUnitsWritten := bs.numberAt 48 16
  hostReadCommands := bs.numberAt 64 16
  hostWriteCommands := bs.numberAt 80 16
  controllerBusyTime := bs.numberAt 96 16
  powerCycles := bs.numberAt 112 16
  powerOnHours := bs.numberAt 128 16
  unsafeShutdowns := bs.numberAt 144 16
  mediaErrors := bs.numberAt 160 16
  errorLogEntries := bs.numberAt 176 16
  warningTempTime := bs.numberAt 192 4
  errorTempTime := bs.numberAt 196 4
  tempSensors := (List.range 8).map fun i => bs.numberAt (200 + i * 2) 2

def FirmwareSlots.fieldsOf (bs : Bytes) : FirmwareSlots where
  activeInfo := bs.numberAt 0 1
  revisions := (List.range 7).map fun i => bs.slice (8 + i * 8) 8

namespace Intel

def TemperatureStats.fieldsOf (bs : Bytes) : TemperatureStats where
  current := bs.numberAt 0 8
  overtempFlagLast := bs.numberAt 8 8
  overtempFlagLife := bs.numberAt 16 8
  maxTemp := bs.numberAt 24 8
  minTemp := bs.numberAt 32 8
  maxOperatingTemp := bs.numberAt 80 8
  minOperatingTemp := bs.numberAt 88 8
  estimatedOffset := bs.numberAt 96 8

def Attribute.fieldsOf (bs : Bytes) : Attribute where
  key := bs.numberAt 0 1
  normalized := bs.numberAt 3 1
  rawBytes := bs.slice 5 6

end Intel

namespace Hgst

def SelfTestResult.fieldsOf (bs : Bytes) : SelfTestResult where
  code := bs.numberAt 0 2
  flags := bs.numberAt 2 1
  length := bs.numberAt 3 1
  results := bs.numberAt 4 1
  number := bs.numberAt 5 1
  powerOnHours := bs.numberAt 6 2
  lba := bs.numberAt 8 8
  sense := bs.numberAt 16 1
  senseCode := bs.numberAt 17 1
  senseQualifier := bs.numberAt 18 1
  vendorDetail := bs.numberAt 19 1

def ScanHeader.fieldsOf (bs : Bytes) : ScanHeader where
  code := bs.numberAt 0 2
  flags := bs.numberAt 2 1
  length := bs.numberAt 3 1
  powerOnMinutes := bs.numberAt 4 4
  status := bs.numberAt 9 1
  scanCount := bs.numberAt 10 2
  progress := bs.numberAt 12 2

def RetirementRecord.fieldsOf (bs : Bytes) : RetirementRecord where
  code := bs.numberAt 0 2
  flags := bs.numberAt 2 1
  length := bs.numberAt 3 1
  powerOnMinutes := bs.numberAt 4 4
  magic := bs.slice 8 8
  nand := bs.numberAt 20 4

def TemperatureHistory.fieldsOf (bs : Bytes) : TemperatureHistory where
  current := bs.numberAt 0 1
  reference := bs.numberAt 1 1
  max := bs.numberAt 2 1
  min := bs.numberAt 3 1
  maxTempTime := bs.numberAt 4 4
  overTempDuration := bs.numberAt 8 4
  minTempTime := bs.numberAt 12 4

def PerformanceCounters.fieldsOf (bs : Bytes) : PerformanceCounters where
  counters := (List.range 16).map fun i => bs.numberAt (i * 8) 8

end Hgst

/-! ## Whole or nothing -/

namespace Record

variable {α : Type} [Record α]

/-- Reads a record from the window itself, which keeps also when it is refused how far it
has come. -/
def readInPlace : InPlace α := do
  return ofFields (← (layout α).readInPlace)

theorem readInPlace_of_le {w : Window} (h : size α ≤ w.remaining) :
    readInPlace w = (.ok (decode w.unread : α), w.advance (size α)) := by
  rw [readInPlace, InPlace.run_bind, Layout.readInPlace_of_le h]
  rfl

theorem readInPlace_of_lt {w : Window} (h : w.remaining < size α) :
    (readInPlace w : Except Shortfall α × Window) = (.error (w.shortfall (size α)), w) := by
  rw [readInPlace, InPlace.run_bind, Layout.readInPlace_of_lt h]
  rfl

/-- The decoders read on a copy of the window, which takes its place when it succeeds. -/
theorem probe_readInPlace : (readInPlace : InPlace α).probe = read := by
  funext w
  by_cases h : size α ≤ w.remaining
  · rw [InPlace.probe, readInPlace_of_le h, read_of_le h]
  · rw [InPlace.probe, readInPlace_of_lt (Nat.not_le.mp h), read_of_lt (Nat.not_le.mp h)]

theorem decode_eq (bs : Bytes) : (decode bs : α) = ofFields ((layout α).valuesFrom 0 bs) := by
  rw [decode, ← Layout.decode_drop, List.drop_zero]

/-- Bytes at no field's place have no part in the record. -/
theorem decode_congr {bs bs' : Bytes}
    (h : ∀ p ∈ (layout α).places, ∀ k, p.Covers k → bs[k]? = bs'[k]?) :
    (decode bs : α) = decode bs' := by
  rw [decode_eq, decode_eq, Layout.valuesFrom_congr h]

/-- Records of this type take so many bytes and have their fields where `fieldsOf` finds
them. -/
structure ReadsExactly (α : Type) [Record α] (size : Nat) (fieldsOf : Bytes → α) : Prop where
  /-- A field stands behind the sizes of all the parts that are declared before it. -/
  mem_places : ∀ p, p ∈ (layout α).places ↔ ∃ before after,
    layout α = before ++ .field p.form :: after ∧ p.offset = Layout.size before
  /-- What is left for the padding is never negative. -/
  past_le : ∀ p ∈ (layout α).places, p.past ≤ size
  whole : ∀ w : Window, size ≤ w.remaining →
    (readInPlace w : Except Shortfall α × Window) = (.ok (fieldsOf w.unread), w.advance size)
  refused : ∀ w : Window, w.remaining < size →
    (readInPlace w : Except Shortfall α × Window) =
      (.error ⟨w.position, size, w.remaining⟩, w)
  copied : read = (readInPlace : InPlace α).probe
  rewritten : ∀ bs : Bytes, size ≤ bs.length →
    (layout α).encodeOver (fields (fieldsOf bs)) bs = bs.take size
  congr : ∀ bs bs' : Bytes,
    (∀ p ∈ (layout α).places, ∀ k, p.Covers k → bs[k]? = bs'[k]?) → fieldsOf bs = fieldsOf bs'

theorem ReadsExactly.of_decode {fieldsOf : Bytes → α}
    (h : ∀ bs, ofFields ((layout α).valuesFrom 0 bs) = fieldsOf bs) :
    ReadsExactly α (size α) fieldsOf := by
  have hdecode : ∀ bs, fieldsOf bs = decode bs := fun bs => by rw [decode_eq, h]
  refine ⟨fun p => Layout.mem_places, fun p => Layout.past_le_size, ?_,
    fun w => readInPlace_of_lt, probe_readInPlace.symm, ?_, ?_⟩
  · intro w hw
    rw [hdecode, readInPlace_of_le hw]
  · intro bs hbs
    rw [hdecode, decode, fields_ofFields]
    exact Layout.encodeOver_decode hbs
  · intro bs bs' hagree
    rw [hdecode, hdecode]
    exact decode_congr hagree

/-- Every record that a page can hold is read exactly: whole, with its fields at their
offsets, or not at all. -/
theorem readsExactly_all :
    ReadsExactly ErrorEntry 64 ErrorEntry.fieldsOf ∧
    ReadsExactly Health 512 Health.fieldsOf ∧
    ReadsExactly FirmwareSlots 512 FirmwareSlots.fieldsOf ∧
    ReadsExactly Intel.TemperatureStats 104 Intel.TemperatureStats.fieldsOf ∧
    ReadsExactly Intel.Attribute 12 Intel.Attribute.fieldsOf ∧
    ReadsExactly Hgst.SelfTestResult 20 Hgst.SelfTestResult.fieldsOf ∧
    ReadsExactly Hgst.ScanHeader 20 Hgst.ScanHeader.fieldsOf ∧
    ReadsExactly Hgst.RetirementRecord 24 Hgst.RetirementRecord.fieldsOf ∧
    ReadsExactly Hgst.TemperatureHistory 16 Hgst.TemperatureHistory.fieldsOf ∧
    ReadsExactly Hgst.PerformanceCounters 128 Hgst.PerformanceCounters.fieldsOf := by
  refine ⟨.of_decode fun _ => rfl, .of_decode fun _ => rfl, .of_decode fun _ => rfl,
    .of_decode fun _ => rfl, .of_decode fun _ => rfl, .of_decode fun _ => rfl,
    .of_decode fun _ => rfl, .of_decode fun _ => rfl, .of_decode fun _ => rfl,
    .of_decode fun bs => ?_⟩
  -- The one array that begins the record: its offsets are written without a zero before them.
  have hcounters : (Form.array 16 (.number 8)).valueAt 0 bs =
      (Hgst.PerformanceCounters.fieldsOf bs).counters := by
    simp only [Form.valueAt, Form.size, Nat.zero_add, Hgst.PerformanceCounters.fieldsOf]
  exact congrArg Hgst.PerformanceCounters.mk hcounters

end Record

end DriveLog
