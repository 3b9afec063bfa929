import DriveLog.PageId
import DriveLog.Shortfall

/-! Why a page could not be shown: the request made no sense, the controller did not
answer, the answer was too short, or the report could not be written. -/

namespace DriveLog

open Text

/-- Why a controller did not answer. -/
inductive TransportFailure where
  /-- The request did not get through, for a reason in words. -/
  | io (reason : String)
  | completion (status : UInt16)
deriving DecidableEq, Repr

def TransportFailure.message : TransportFailure → String
  | io reason => "get log page request failed: " ++ reason
  | completion status =>
    "get log page request returned error (status " ++ hexWord 4 status.toNat ++ ")"

inductive Failure where
  /-- A namespace was given for a page that belongs to the controller. -/
  | controllerScopedPage (page : PageId)
  | namespaceSmartUnsupported
  | transport (page : PageId) (source : TransportFailure)
  | decode (page : PageId) (source : Shortfall)
  /-- The report could not be written, for a reason in words. -/
  | output (reason : String)
deriving DecidableEq, Repr

namespace Failure

def message : Failure → String
  | controllerScopedPage page =>
    "log page " ++ decimal page.toNat ++ " valid only at controller level"
  | namespaceSmartUnsupported =>
    "controller does not support per namespace smart/health information"
  | transport page source => "log page " ++ hexWord 2 page.toNat ++ ": " ++ source.message
  | decode page source => "log page " ++ hexWord 2 page.toNat ++ ": " ++ source.message
  | output reason => reason

/-- What lies behind the failure, nearest cause first. -/
def causes : Failure → List String
  | transport _ (.io reason) => [TransportFailure.message (.io reason), reason]
  | transport _ source => [source.message]
  | decode _ source => [source.message]
  | _ => []

end Failure

end DriveLog
