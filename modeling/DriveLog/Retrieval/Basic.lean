import DriveLog.Decoder
import DriveLog.Retrieval.Failure
import DriveLog.Retrieval.Sink

/-! Retrieval of a page from a controller. A request is checked first, then the page is
asked for once, then it is decoded and its report written; whatever fails ends the
retrieval there. -/

namespace DriveLog

open Text

/-- The namespace identifier that stands for the controller as a whole. -/
def globalNamespace : UInt32 := 0xffffffff

/-- What a controller is asked for. -/
structure Query where
  page : PageId
  namespaceId : UInt32
  size : Nat
deriving DecidableEq, Repr

structure Answer where
  result : Except TransportFailure Bytes
  messages : List Message := []

structure Controller where
  /-- Whether health data may be asked for by namespace. -/
  namespaceSmart : Bool
  /-- The number of the last error entry kept, counted from zero. -/
  lastErrorEntry : UInt8
  answer : Query → Answer

structure Request where
  page : PageId
  namespaceId : Option UInt32 := none
  /-- Dump the page in hex whatever decoder it has. -/
  asHex : Bool := false
deriving DecidableEq, Repr

namespace Request

/-- Only the health page belongs to a namespace, and only if the controller keeps it so. -/
def check (request : Request) (namespaceSmart : Bool) : Except Failure Unit :=
  if request.namespaceId.isNone then .ok ()
  else if request.page ≠ .healthInformation then .error (.controllerScopedPage request.page)
  else if !namespaceSmart then .error .namespaceSmartUnsupported
  else .ok ()

def targetNamespace (request : Request) : UInt32 := request.namespaceId.getD globalNamespace

def choice (request : Request) : DecoderChoice := Decoder.choose request.page request.asHex

/-- The error log has the size the controller gives it, even in hex. -/
def size (request : Request) (lastErrorEntry : UInt8) : Nat :=
  if request.page = .errorInformation then Decoder.errorLogSize lastErrorEntry
  else request.choice.size

def query (request : Request) (lastErrorEntry : UInt8) : Query :=
  ⟨request.page, request.targetNamespace, request.size lastErrorEntry⟩

end Request

def Query.message (query : Query) : Message :=
  ⟨.info, .retrieval, "get log page " ++ hexWord 2 query.page.toNat ++ " nsid " ++
    hexWord 1 query.namespaceId.toNat ++ ", " ++ decimal query.size ++ " bytes"⟩

/-- Decodes a page and writes its report. Nothing is written of a page that is too short. -/
def Decoder.render (decoder : Decoder) (page : PageId) (bs : Bytes) (sink : Sink) :
    Except Failure Unit × Sink × List Message :=
  match decoder.decode page bs with
  | .error shortfall => (.error (.decode page shortfall), sink, [])
  | .ok decoded =>
    let (result, sink) := sink.writeReport decoded.report
    (result.mapError fun refusal => .output refusal.message, sink, decoded.messages)

namespace Decoder

variable {decoder : Decoder} {page : PageId} {bs : Bytes}

theorem render_of_error {shortfall : Shortfall} (h : decoder.decode page bs = .error shortfall)
    (sink : Sink) : decoder.render page bs sink = (.error (.decode page shortfall), sink, []) := by
  simp only [render, h]

/-- The text of the report is written as one piece is. -/
theorem render_of_ok {decoded : Decoded} (h : decoder.decode page bs = .ok decoded)
    (sink : Sink) :
    decoder.render page bs sink =
      ((sink.write decoded.report.text).1.mapError fun refusal => .output refusal.message,
        (sink.write decoded.report.text).2, decoded.messages) := by
  simp only [render, h, Sink.writeReport_eq_write]

end Decoder

/-- All that a retrieval did. -/
structure Outcome where
  result : Except Failure Unit
  /-- What the controller was asked, in order. -/
  queries : List Query := []
  sink : Sink
  messages : List Message := []

namespace Controller

/-- Renders the bytes of an answer and flushes the sink once the whole report is written. -/
def deliver (request : Request) (bs : Bytes) (sink : Sink) : Outcome :=
  let returned : Message :=
    ⟨.debug, .retrieval, "controller returned " ++ decimal bs.length ++ " bytes"⟩
  match request.choice.decoder.render request.page bs sink with
  | (.error failure, sink, messages) =>
    { result := .error failure, sink, messages := returned :: messages }
  | (.ok (), sink, messages) =>
    let (result, sink) := sink.flush
    { result := result.mapError fun refusal => .output refusal.message
      sink, messages := returned :: messages }

def retrieve (controller : Controller) (request : Request) (sink : Sink) : Outcome :=
  match request.check controller.namespaceSmart with
  | .error failure => { result := .error failure, sink }
  | .ok () =>
    let query := request.query controller.lastErrorEntry
    let answer := controller.answer query
    let asked := [Decoder.choiceMessage request.page request.choice, query.message] ++
      answer.messages
    match answer.result with
    | .error source =>
      { result := .error (.transport request.page source), queries := [query], sink
        messages := asked }
    | .ok bs =>
      let outcome := deliver request bs sink
      { outcome with queries := [query], messages := asked ++ outcome.messages }

variable {controller : Controller} {request : Request} {bs : Bytes} {sink after : Sink}

/-! What becomes of a retrieval, by the point at which it ends. -/

theorem retrieve_of_check {failure : Failure}
    (h : request.check controller.namespaceSmart = .error failure) (sink : Sink) :
    controller.retrieve request sink = { result := .error failure, sink } := by
  simp only [retrieve, h]

theorem retrieve_of_transport {source : TransportFailure}
    (hcheck : request.check controller.namespaceSmart = .ok ())
    (h : (controller.answer (request.query controller.lastErrorEntry)).result = .error source)
    (sink : Sink) :
    ∃ messages, controller.retrieve request sink =
      { result := .error (.transport request.page source)
        queries := [request.query controller.lastErrorEntry], sink, messages } := by
  simp only [retrieve, hcheck, h]
  exact ⟨_, rfl⟩

theorem retrieve_of_ok (hcheck : request.check controller.namespaceSmart = .ok ())
    (h : (controller.answer (request.query controller.lastErrorEntry)).result = .ok bs)
    (sink : Sink) :
    ∃ messages, controller.retrieve request sink =
      { deliver request bs sink with
        queries := [request.query controller.lastErrorEntry], messages } := by
  simp only [retrieve, hcheck, h]
  exact ⟨_, rfl⟩

theorem deliver_of_error {shortfall : Shortfall}
    (h : request.choice.decoder.decode request.page bs = .error shortfall) (sink : Sink) :
    ∃ messages, deliver request bs sink =
      { result := .error (.decode request.page shortfall), sink, messages } := by
  simp only [deliver, Decoder.render_of_error h]
  exact ⟨_, rfl⟩

theorem deliver_of_refused {decoded : Decoded} {refusal : Refusal}
    (h : request.choice.decoder.decode request.page bs = .ok decoded)
    (hwrite : sink.write decoded.report.text = (.error refusal, after)) :
    ∃ messages, deliver request bs sink =
      { result := .error (.output refusal.message), sink := after, messages } := by
  simp only [deliver, Decoder.render_of_ok h, hwrite]
  exact ⟨_, rfl⟩

/-- A report that is written whole is flushed. -/
theorem deliver_of_written {decoded : Decoded}
    (h : request.choice.decoder.decode request.page bs = .ok decoded)
    (hwrite : sink.write decoded.report.text = (.ok (), after)) :
    ∃ messages, deliver request bs sink =
      { result := after.flush.1.mapError fun refusal => .output refusal.message
        sink := after.flush.2, messages } := by
  simp only [deliver, Decoder.render_of_ok h, hwrite]
  exact ⟨_, rfl⟩

end Controller

end DriveLog
