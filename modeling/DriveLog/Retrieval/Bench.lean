import DriveLog.Bytes.Slots
import DriveLog.Retrieval.Basic

/-! A controller on the bench. It answers every query from data set beforehand and can
be made to fail, and its settings may change between retrievals. -/

namespace DriveLog

structure Bench where
  data : Bytes := []
  namespaceSmart : Bool := false
  lastErrorEntry : UInt8 := 0
  /-- Answer with the data as they are, whatever size was asked for. -/
  exact : Bool := false
  failure : Option TransportFailure := none
deriving DecidableEq, Repr

namespace Bench

def answer (bench : Bench) (query : Query) : Answer :=
  match bench.failure with
  | some failure => { result := .error failure }
  | none => { result := .ok (if bench.exact then bench.data else bench.data.resize query.size) }

def controller (bench : Bench) : Controller where
  namespaceSmart := bench.namespaceSmart
  lastErrorEntry := bench.lastErrorEntry
  answer := bench.answer

/-- A change of settings; what it does not name stays. -/
structure Change where
  data : Option Bytes := none
  namespaceSmart : Option Bool := none
  lastErrorEntry : Option UInt8 := none
  exact : Option Bool := none
  failure : Option (Option TransportFailure) := none
deriving DecidableEq, Repr

def apply (bench : Bench) (change : Change) : Bench where
  data := change.data.getD bench.data
  namespaceSmart := change.namespaceSmart.getD bench.namespaceSmart
  lastErrorEntry := change.lastErrorEntry.getD bench.lastErrorEntry
  exact := change.exact.getD bench.exact
  failure := change.failure.getD bench.failure

inductive Step where
  | change (change : Change)
  | retrieve (request : Request) (sink : Sink)

/-- The outcomes of a session: one for each retrieval, none for a change. -/
def run (bench : Bench) : List Step → List (Option Outcome)
  | [] => []
  | .change change :: steps => none :: (bench.apply change).run steps
  | .retrieve request sink :: steps =>
    some (bench.controller.retrieve request sink) :: bench.run steps

end Bench

end DriveLog
