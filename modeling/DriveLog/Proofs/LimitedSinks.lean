import DriveLog.Proofs.PrintableReports

/-! What a sink with little room receives. The text of a report depends on the page alone;
a sink takes it from the front as far as it has room, wherever in the report that is, and
the rest fails the retrieval. A flush comes after the whole text and only then. -/

namespace DriveLog

open Text

namespace Sink

variable {sink : Sink} {text : String} {limit : Nat}

/-- What became of a text in a sink with room for so many bytes: the sink holds the first
ones behind what it held before, and has refused the text if these were not all. -/
structure Received (sink : Sink) (limit : Nat) (text : String)
    (result : Except Refusal Unit) (after : Sink) : Prop where
  written : utf8 after.written = utf8 sink.written ++ (utf8 text).take limit
  ok_iff : result = .ok () ↔ (utf8 text).length ≤ limit
  refused : limit < (utf8 text).length → result = .error .full
  flushes : after.flushes = sink.flushes

theorem received_write (hascii : ∀ c ∈ text.toList, c.toNat < 0x80)
    (hroom : sink.room = some limit) :
    sink.Received limit text (sink.write text).1 (sink.write text).2 := by
  have hlength : (utf8 text).length = text.length := length_utf8 hascii
  rcases sink.write_cases text with ⟨hfits, room, hwrite⟩ | ⟨n, hn, hlt, hwrite⟩
  · have hle : (utf8 text).length ≤ limit := hlength ▸ hfits limit hroom
    rw [hwrite]
    refine ⟨?_, iff_of_true rfl hle, ?_, rfl⟩
    · rw [List.take_of_length_le hle]
      exact utf8_append _ _
    · intro hlt
      exact absurd hle (Nat.not_le.mpr hlt)
  · obtain rfl : n = limit := Option.some.inj (hn.symm.trans hroom)
    rw [← hlength] at hlt
    rw [hwrite]
    refine ⟨?_, iff_of_false ?_ (Nat.not_le.mpr hlt), ?_, rfl⟩
    · rw [utf8_append, utf8_take hascii]
    · intro hok
      cases hok
    · intro _
      rfl

/-- A refused text is not all there. -/
theorem append_take_ne (sink : Sink) {n : Nat} (h : n < text.length) :
    sink.written ++ String.ofList (text.toList.take n) ≠ sink.written ++ text := by
  intro hall
  have hlengths := congrArg String.length hall
  simp only [String.length_append, String.length_ofList, List.length_take,
    String.length_toList] at hlengths
  omega

/-- What became of a retrieval whose page has this text: the sink has received as much of it
as fits and was flushed once if that was all, and the retrieval succeeded exactly if it was
all and the flush was not refused. -/
structure Shown (sink : Sink) (text : String) (outcome : Outcome) : Prop where
  limited : ∀ limit, sink.room = some limit →
    utf8 outcome.sink.written = utf8 sink.written ++ (utf8 text).take limit
  unlimited : sink.room = none → outcome.sink.written = sink.written ++ text
  flushes : outcome.sink.flushes =
    sink.flushes + if outcome.sink.written = sink.written ++ text then 1 else 0
  ok_iff : outcome.result = .ok () ↔
    outcome.sink.written = sink.written ++ text ∧ sink.refusesFlush = false
  refused : outcome.sink.written ≠ sink.written ++ text →
    outcome.result = .error (.output Refusal.full.message)
  unflushed : outcome.sink.written = sink.written ++ text → sink.refusesFlush = true →
    outcome.result = .error (.output Refusal.flush.message)

end Sink

namespace Decoder

variable {decoder : Decoder} {page : PageId} {bs : Bytes}

/-- Where a decoder succeeds with unlimited room, the text written is that of its report. -/
theorem decode_of_unlimited {full : Sink} {messages : List Message}
    (h : decoder.render page bs {} = (.ok (), full, messages)) :
    ∃ decoded, decoder.decode page bs = .ok decoded ∧ decoded.report.text = full.written ∧
      decoded.messages = messages := by
  obtain ⟨decoded, hdecode, hwritten⟩ := decode_of_render h
  rw [render_of_ok hdecode] at h
  refine ⟨decoded, hdecode, ?_, congrArg (fun rendered => rendered.2.2) h⟩
  rw [hwritten]
  exact String.empty_append.symm

end Decoder

namespace Controller

variable {controller : Controller} {request : Request} {bs : Bytes} {sink : Sink}

theorem shown_deliver {decoded : Decoded}
    (h : request.choice.decoder.decode request.page bs = .ok decoded) (sink : Sink) :
    sink.Shown decoded.report.text (deliver request bs sink) := by
  have hascii := Report.ascii_text (Decoder.isPrintable_of_decode h)
  have hlimited : ∀ limit, sink.room = some limit →
      utf8 (sink.write decoded.report.text).2.written =
        utf8 sink.written ++ (utf8 decoded.report.text).take limit := by
    intro limit hroom
    exact (Sink.received_write hascii hroom).written
  -- Written whole, the report is flushed and the flush decides; cut off, nothing follows.
  rcases sink.write_cases decoded.report.text with ⟨_, room, hwrite⟩ | ⟨n, hroom, hlt, hwrite⟩
  · obtain ⟨messages, hdeliver⟩ := deliver_of_written h hwrite
    rw [hwrite] at hlimited
    rw [hdeliver]
    rcases Bool.eq_false_or_eq_true sink.refusesFlush with hflush | hflush
    case inr =>
      have haccepts : { sink with
          room, written := sink.written ++ decoded.report.text }.refusesFlush = false := hflush
      rw [Sink.flush_of_accepted haccepts]
      refine ⟨hlimited, fun _ => rfl, ?_, iff_of_true rfl ⟨rfl, hflush⟩, ?_, ?_⟩
      · simp only [if_true]
      · intro hne
        exact absurd rfl hne
      · intro _ hrefuses
        cases hflush.symm.trans hrefuses
    case inl =>
      have hrefuses : { sink with
          room, written := sink.written ++ decoded.report.text }.refusesFlush = true := hflush
      rw [Sink.flush_of_refused hrefuses]
      refine ⟨hlimited, fun _ => rfl, ?_, iff_of_false ?_ ?_, ?_, fun _ _ => rfl⟩
      · simp only [if_true]
      · intro hok
        cases hok
      · intro hall
        cases hflush.symm.trans hall.2
      · intro hne
        exact absurd rfl hne
  · obtain ⟨messages, hdeliver⟩ := deliver_of_refused h hwrite
    have hne := sink.append_take_ne hlt
    rw [hwrite] at hlimited
    rw [hdeliver]
    refine ⟨hlimited, ?_, ?_, ?_, ?_, ?_⟩
    · intro hnone
      cases hroom.symm.trans hnone
    · simp only [if_neg hne, Nat.add_zero]
    · refine iff_of_false ?_ ?_
      · intro hok
        cases hok
      · intro hall
        exact hne hall.1
    · intro _
      rfl
    · intro hall
      exact absurd hall hne

theorem shown_retrieve {decoded : Decoded}
    (hcheck : request.check controller.namespaceSmart = .ok ())
    (hanswer : (controller.answer (request.query controller.lastErrorEntry)).result = .ok bs)
    (hdecode : request.choice.decoder.decode request.page bs = .ok decoded) (sink : Sink) :
    sink.Shown decoded.report.text (controller.retrieve request sink) := by
  obtain ⟨messages, hretrieve⟩ := retrieve_of_ok hcheck hanswer sink
  obtain ⟨limited, unlimited, flushes, ok_iff, refused, unflushed⟩ := shown_deliver hdecode sink
  rw [hretrieve]
  exact ⟨limited, unlimited, flushes, ok_iff, refused, unflushed⟩

/-- A retrieval fails before anything is written, or the page has a text and it is the sink
alone that decides what becomes of it. -/
theorem retrieve_cases (controller : Controller) (request : Request) :
    (∃ failure, ∀ sink, (controller.retrieve request sink).result = .error failure ∧
      (controller.retrieve request sink).sink = sink) ∨
    ∃ text, ∀ sink : Sink, sink.Shown text (controller.retrieve request sink) := by
  cases hcheck : request.check controller.namespaceSmart with
  | error failure =>
    refine .inl ⟨failure, ?_⟩
    intro sink
    rw [retrieve_of_check hcheck]
    exact ⟨rfl, rfl⟩
  | ok =>
    cases hanswer : (controller.answer (request.query controller.lastErrorEntry)).result with
    | error source =>
      refine .inl ⟨.transport request.page source, ?_⟩
      intro sink
      obtain ⟨messages, hretrieve⟩ := retrieve_of_transport hcheck hanswer sink
      rw [hretrieve]
      exact ⟨rfl, rfl⟩
    | ok bs =>
      cases hdecode : request.choice.decoder.decode request.page bs with
      | error shortfall =>
        refine .inl ⟨.decode request.page shortfall, ?_⟩
        intro sink
        obtain ⟨messages, hretrieve⟩ := retrieve_of_ok hcheck hanswer sink
        obtain ⟨_, hdeliver⟩ := deliver_of_error hdecode sink
        rw [hretrieve, hdeliver]
        exact ⟨rfl, rfl⟩
      | ok decoded =>
        exact .inr ⟨decoded.report.text, shown_retrieve hcheck hanswer hdecode⟩

/-- A sink receives the text that unlimited room would receive, from the front as far as it
fits, however the text is cut into pieces; a retrieval flushes it once if that is all of the
text and never otherwise, and succeeds exactly if that flush does. -/
theorem retrieve_received :
    (∀ (decoder : Decoder) (page : PageId) (bs : Bytes) (full : Sink) (messages : List Message),
      decoder.render page bs {} = (.ok (), full, messages) →
      ∀ (sink : Sink) (limit : Nat), sink.room = some limit →
        ∃ result after,
          decoder.render page bs sink =
            (result.mapError fun refusal => .output refusal.message, after, messages) ∧
          sink.Received limit full.written result after ∧
          ∀ pieces, String.join pieces = full.written →
            sink.writePieces pieces = (result, after)) ∧
    ∀ (controller : Controller) (request : Request) (sink : Sink),
      (∀ failure, (controller.retrieve request {}).result = .error failure →
        (controller.retrieve request sink).result = .error failure ∧
          (controller.retrieve request sink).sink = sink) ∧
      ((controller.retrieve request {}).result = .ok () →
        sink.Shown (controller.retrieve request {}).sink.written
          (controller.retrieve request sink)) := by
  refine ⟨?_, ?_⟩
  · intro decoder page bs full messages hfull sink limit hroom
    obtain ⟨decoded, hdecode, htext, hmessages⟩ := Decoder.decode_of_unlimited hfull
    have hascii := Report.ascii_text (Decoder.isPrintable_of_decode hdecode)
    have hreceived := Sink.received_write hascii hroom
    have hrender := Decoder.render_of_ok hdecode sink
    rw [hmessages] at hrender
    rw [htext] at hreceived hrender
    refine ⟨_, _, hrender, hreceived, ?_⟩
    intro pieces hpieces
    rw [Sink.writePieces_eq_write, hpieces]
  · intro controller request sink
    rcases controller.retrieve_cases request with ⟨failure, hfails⟩ | ⟨text, hshown⟩
    · refine ⟨?_, ?_⟩
      · intro failure' hfree
        cases (hfails {}).1.symm.trans hfree
        exact hfails sink
      · intro hfree
        cases (hfails {}).1.symm.trans hfree
    · have hall : (controller.retrieve request {}).sink.written = text := by
        rw [(hshown {}).unlimited rfl]
        exact String.empty_append
      refine ⟨?_, ?_⟩
      · intro failure hfree
        have hok := (hshown {}).ok_iff.mpr ⟨(hshown {}).unlimited rfl, rfl⟩
        cases hok.symm.trans hfree
      · intro _
        rw [hall]
        exact hshown sink

/-- Of the dump of an empty page a sink with room for ten bytes receives the first ten and
is not flushed. -/
theorem retrieve_received_cut :
    let text := "Unknown Log Page (page 0x99), 0 bytes\n"
    let controller : Controller :=
      { namespaceSmart := false, lastErrorEntry := 0, answer := fun _ => { result := .ok [] } }
    (∃ result after,
      Decoder.hex.render 0x99 [] { room := some 10 } =
        (result.mapError fun refusal => .output refusal.message, after, []) ∧
      Sink.Received { room := some 10 } 10 text result after ∧
      Sink.writePieces { room := some 10 } ["Unknown ", "Log Page (page 0x99)", ", 0 bytes\n"] =
        (result, after)) ∧
    Sink.Shown { room := some 10 } text
      (controller.retrieve { page := 0x99 } { room := some 10 }) := by
  intro text controller
  have hrender : Decoder.hex.render 0x99 [] {} = (.ok (), { written := text }, []) := by rfl
  have hfree : (controller.retrieve { page := 0x99 } {}).result = .ok () := by rfl
  obtain ⟨result, after, hresult, hreceived, hpieces⟩ :=
    retrieve_received.1 .hex 0x99 [] _ _ hrender { room := some 10 } 10 rfl
  refine ⟨⟨result, after, hresult, hreceived, hpieces _ ?_⟩, ?_⟩
  · rfl
  · exact (retrieve_received.2 controller { page := 0x99 } { room := some 10 }).2 hfree

end Controller

end DriveLog
