/-! Log page identifiers and the names of the pages that have one. -/

namespace DriveLog

abbrev PageId := UInt8

namespace PageId

def errorInformation : PageId := 0x01
def healthInformation : PageId := 0x02
def firmwareSlot : PageId := 0x03
def hgstInfo : PageId := 0xc1
def intelTemperature : PageId := 0xc5
def intelAdditionalSmart : PageId := 0xca

def names : List (PageId × String) :=
  [(0x01, "Error Information"),
    (0x02, "SMART / Health Information"),
    (0x03, "Firmware Slot Information"),
    (0x04, "Changed Namespace List"),
    (0x05, "Commands Supported and Effects"),
    (0x06, "Device Self-test"),
    (0x80, "Reservation Notification"),
    (0x81, "Sanitize Status"),
    (0xc1, "HGST Extra Info"),
    (0xc5, "Intel Temperature Statistics"),
    (0xca, "Intel Additional SMART")]

def name? (page : PageId) : Option String := names.lookup page

def title (page : PageId) : String := page.name?.getD "Unknown Log Page"

end PageId

end DriveLog
