import DriveLog.HexDump
import DriveLog.Hgst.InfoPage
import DriveLog.Intel.Attribute
import DriveLog.Intel.Temperature
import DriveLog.PageId
import DriveLog.Standard.ErrorLog
import DriveLog.Standard.FirmwareSlots
import DriveLog.Standard.Health

/-! The choice of a decoder for a page, the number of bytes to ask for, and what each
decoder makes of the bytes. A page without a decoder of its own is dumped in hex. -/

namespace DriveLog

open Text

inductive Decoder where
  | errorLog
  | health
  | firmwareSlot
  | hgstInfo
  | intelTemperature
  | intelAdditionalSmart
  | hex
deriving DecidableEq, Repr

/-- A decoder and the number of bytes it wants. -/
structure DecoderChoice where
  decoder : Decoder
  size : Nat
deriving DecidableEq, Repr

/-- What came of decoding a page. -/
structure Decoded where
  report : Report
  messages : List Message := []

namespace Decoder

def name : Decoder → String
  | errorLog => "ErrorLog"
  | health => "Health"
  | firmwareSlot => "FirmwareSlot"
  | hgstInfo => "HgstInfo"
  | intelTemperature => "IntelTemperature"
  | intelAdditionalSmart => "IntelAdditionalSmart"
  | hex => "Hex"

/-- The size asked for where the page has no size of its own. -/
def defaultSize : Nat := 4096

/-- The decoder made for a page. The error log's size here is that of one entry. -/
def lookup? (page : PageId) : Option DecoderChoice :=
  if page = .errorInformation then some ⟨errorLog, Record.size ErrorEntry⟩
  else if page = .healthInformation then some ⟨health, Record.size Health⟩
  else if page = .firmwareSlot then some ⟨firmwareSlot, Record.size FirmwareSlots⟩
  else if page = .hgstInfo then some ⟨hgstInfo, defaultSize⟩
  else if page = .intelTemperature then
    some ⟨intelTemperature, Record.size Intel.TemperatureStats⟩
  else if page = .intelAdditionalSmart then some ⟨intelAdditionalSmart, defaultSize⟩
  else none

/-- The decoder to use: a hex dump if one is asked for or the page has no other. -/
def choose (page : PageId) (asHex : Bool) : DecoderChoice :=
  if asHex then ⟨hex, defaultSize⟩ else (lookup? page).getD ⟨hex, defaultSize⟩

def choiceMessage (page : PageId) (choice : DecoderChoice) : Message :=
  ⟨.debug, .decoderChoice, "page " ++ hexWord 2 page.toNat ++ ": " ++ choice.decoder.name ++
    " decoder, " ++ decimal choice.size ++ " byte buffer"⟩

/-- The size of an error log whose last entry has this number, counted from zero. -/
def errorLogSize (lastEntry : UInt8) : Nat := Record.size ErrorEntry * (lastEntry.toNat + 1)

def decode (decoder : Decoder) (page : PageId) (bs : Bytes) : Except Shortfall Decoded :=
  match decoder with
  | errorLog => do
    let log ← ErrorLog.ofBytes? bs
    return { report := log.report }
  | health => do
    let page : Health ← Record.ofBytes? bs
    return { report := page.report }
  | firmwareSlot => do
    let page : FirmwareSlots ← Record.ofBytes? bs
    return { report := page.report }
  | hgstInfo => do
    let page ← Hgst.InfoPage.ofBytes? bs
    return { report := page.report, messages := page.messages }
  | intelTemperature => do
    let page : Intel.TemperatureStats ← Record.ofBytes? bs
    return { report := page.report }
  | intelAdditionalSmart => do
    let log ← Intel.AdditionalSmart.ofBytes? bs
    return { report := log.report }
  | hex => .ok { report := HexDump.report page.title page bs }

end Decoder

end DriveLog
