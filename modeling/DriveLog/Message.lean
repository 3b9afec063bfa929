/-! What an operation logs: messages with a level and the part of the program they come
from. -/

namespace DriveLog

inductive Level where
  | warn
  | info
  | debug
deriving DecidableEq, Repr

namespace Level

def name : Level → String
  | warn => "WARN"
  | info => "INFO"
  | debug => "DEBUG"

/-- Later levels say more. -/
def rank : Level → Nat
  | warn => 0
  | info => 1
  | debug => 2

end Level

/-- The part of the program a message comes from. -/
inductive Origin where
  | decoderChoice
  | retrieval
  | capture
  | infoPage
  | subpage
  | parameterList
deriving DecidableEq, Repr

def Origin.name : Origin → String
  | decoderChoice => "nvme_logpage::dispatch"
  | retrieval => "nvme_logpage::controller"
  | capture => "nvme_logpage::capture"
  | infoPage => "nvme_logpage::hgst"
  | subpage => "nvme_logpage::hgst::subpages"
  | parameterList => "nvme_logpage::klv"

structure Message where
  level : Level
  origin : Origin
  text : String
deriving DecidableEq, Repr

namespace Message

/-- The message as a line of a terminal log; below information the origin is shown too. -/
def logLine (m : Message) : String :=
  match m.level with
  | .warn | .info => "[" ++ m.level.name ++ "] " ++ m.text
  | .debug => "[" ++ m.level.name ++ "] (1) " ++ m.origin.name ++ ": " ++ m.text

/-- The lines shown at a verbosity: warnings always, and one more level with each step. -/
def logLines (verbosity : Nat) (messages : List Message) : List String :=
  (messages.filter fun m => m.level.rank ≤ verbosity).map logLine

end Message

end DriveLog
