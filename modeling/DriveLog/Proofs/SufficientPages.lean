import DriveLog.Retrieval.Basic

/-! How long a page has to be. A decoder refuses a page for its length alone, and the
length that is asked for is always enough, so what a page holds fails no retrieval. -/

namespace DriveLog

namespace Decoder

/-- The length from which on the decoder takes any page. -/
def minimumSize : Decoder → Nat
  | health | firmwareSlot => 512
  | intelTemperature => 104
  | hgstInfo => 4
  | errorLog | intelAdditionalSmart | hex => 0

variable {decoder : Decoder} {page : PageId} {bs : Bytes} {sink : Sink}

theorem decode_of_le (h : decoder.minimumSize ≤ bs.length) (page : PageId) :
    ∃ decoded, decoder.decode page bs = .ok decoded := by
  cases decoder with
  | errorLog =>
    rw [decode, ErrorLog.ofBytes?_eq]
    exact ⟨_, rfl⟩
  | health =>
    have hsize : Record.size Health ≤ bs.length := h
    rw [decode, Record.ofBytes?_of_le hsize]
    exact ⟨_, rfl⟩
  | firmwareSlot =>
    have hsize : Record.size FirmwareSlots ≤ bs.length := h
    rw [decode, Record.ofBytes?_of_le hsize]
    exact ⟨_, rfl⟩
  | hgstInfo =>
    rw [decode, Hgst.InfoPage.ofBytes?_of_le h]
    exact ⟨_, rfl⟩
  | intelTemperature =>
    have hsize : Record.size Intel.TemperatureStats ≤ bs.length := h
    rw [decode, Record.ofBytes?_of_le hsize]
    exact ⟨_, rfl⟩
  | intelAdditionalSmart =>
    rw [decode, Intel.AdditionalSmart.ofBytes?_eq]
    exact ⟨_, rfl⟩
  | hex => exact ⟨_, rfl⟩

theorem decode_of_lt (h : bs.length < decoder.minimumSize) (page : PageId) :
    ∃ shortfall, decoder.decode page bs = .error shortfall := by
  cases decoder with
  | health =>
    have hsize : bs.length < Record.size Health := h
    rw [decode, Record.ofBytes?_of_lt hsize]
    exact ⟨_, rfl⟩
  | firmwareSlot =>
    have hsize : bs.length < Record.size FirmwareSlots := h
    rw [decode, Record.ofBytes?_of_lt hsize]
    exact ⟨_, rfl⟩
  | hgstInfo =>
    obtain ⟨e, he⟩ := Hgst.InfoPage.ofBytes?_of_lt h
    rw [decode, he]
    exact ⟨e, rfl⟩
  | intelTemperature =>
    have hsize : bs.length < Record.size Intel.TemperatureStats := h
    rw [decode, Record.ofBytes?_of_lt hsize]
    exact ⟨_, rfl⟩
  | errorLog => exact absurd h (Nat.not_lt_zero _)
  | intelAdditionalSmart => exact absurd h (Nat.not_lt_zero _)
  | hex => exact absurd h (Nat.not_lt_zero _)

/-- Rendering with unlimited room is refused exactly where the page is too short. -/
theorem render_of_room (hroom : sink.room = none) :
    ((∃ shortfall, (decoder.render page bs sink).1 = .error (.decode page shortfall)) ↔
        bs.length < decoder.minimumSize) ∧
      (decoder.minimumSize ≤ bs.length →
        ∃ written messages, decoder.render page bs sink =
          (.ok (), { sink with written := written }, messages)) := by
  have hok : decoder.minimumSize ≤ bs.length →
      ∃ written messages, decoder.render page bs sink =
        (.ok (), { sink with written := written }, messages) := by
    intro hle
    obtain ⟨decoded, hdecoded⟩ := decode_of_le hle page
    simp only [render, hdecoded, Sink.writeReport_of_room hroom]
    exact ⟨_, _, rfl⟩
  refine ⟨⟨?_, ?_⟩, hok⟩
  · rintro ⟨shortfall, herror⟩
    by_cases hle : decoder.minimumSize ≤ bs.length
    · obtain ⟨written, messages, hrender⟩ := hok hle
      rw [hrender] at herror
      cases herror
    · exact Nat.not_le.mp hle
  · intro hlt
    obtain ⟨shortfall, hshort⟩ := decode_of_lt hlt page
    refine ⟨shortfall, ?_⟩
    simp only [render, hshort]

/-! ## Sizes asked for -/

theorem minimumSize_le_of_lookup? {choice : DecoderChoice} (h : lookup? page = some choice) :
    choice.decoder.minimumSize ≤ choice.size := by
  unfold lookup? at h
  repeat' split at h
  all_goals cases h
  all_goals decide

theorem minimumSize_choose_le (page : PageId) (asHex : Bool) :
    (choose page asHex).decoder.minimumSize ≤ (choose page asHex).size := by
  cases asHex with
  | true => exact Nat.zero_le _
  | false =>
    have hchoose : choose page false = (lookup? page).getD ⟨hex, defaultSize⟩ := rfl
    rw [hchoose]
    cases hlookup : lookup? page with
    | none => exact Nat.zero_le _
    | some choice => exact minimumSize_le_of_lookup? hlookup

/-- The page whose size the controller decides has decoders that take any page. -/
theorem minimumSize_choose_errorInformation (asHex : Bool) :
    (choose .errorInformation asHex).decoder.minimumSize = 0 := by
  cases asHex <;> decide

end Decoder

theorem Request.minimumSize_le_size (request : Request) (lastErrorEntry : UInt8) :
    request.choice.decoder.minimumSize ≤ request.size lastErrorEntry := by
  unfold Request.choice Request.size
  split
  · rename_i hpage
    rw [hpage, Decoder.minimumSize_choose_errorInformation]
    exact Nat.zero_le _
  · exact Decoder.minimumSize_choose_le _ _

namespace Controller

variable {controller : Controller} {request : Request} {bs : Bytes} {sink : Sink}

/-- A page of at least the size that its decoder needs is shown. -/
theorem deliver_of_le (h : request.choice.decoder.minimumSize ≤ bs.length)
    (hroom : sink.room = none) (hflush : sink.refusesFlush = false) :
    (deliver request bs sink).result = .ok () := by
  obtain ⟨written, messages, hrender⟩ := (Decoder.render_of_room hroom).2 h
  unfold deliver
  rw [hrender]
  simp only [Sink.flush, hflush]
  rfl

theorem retrieve_of_answer (hcheck : request.check controller.namespaceSmart = .ok ())
    (hanswer : (controller.answer (request.query controller.lastErrorEntry)).result = .ok bs) :
    (controller.retrieve request sink).result = (deliver request bs sink).result := by
  unfold retrieve
  rw [hcheck]
  simp only [hanswer]

/-- A decoder refuses exactly the pages that are too short for it, whatever they hold, and a
controller that answers with the size it is asked for is never refused. -/
theorem retrieve_of_size :
    (∀ (decoder : Decoder) (page : PageId) (bs : Bytes) (sink : Sink), sink.room = none →
      ((∃ shortfall, (decoder.render page bs sink).1 = .error (.decode page shortfall)) ↔
          bs.length < decoder.minimumSize) ∧
        (decoder.minimumSize ≤ bs.length → (decoder.render page bs sink).1 = .ok ())) ∧
    ∀ (controller : Controller) (request : Request) (bs : Bytes) (sink : Sink),
      request.check controller.namespaceSmart = .ok () →
      (controller.answer (request.query controller.lastErrorEntry)).result = .ok bs →
      bs.length = request.size controller.lastErrorEntry →
      sink.room = none → sink.refusesFlush = false →
      (controller.retrieve request sink).result = .ok () := by
  refine ⟨?_, ?_⟩
  · intro decoder page bs sink hroom
    obtain ⟨hiff, hok⟩ := @Decoder.render_of_room decoder page bs sink hroom
    refine ⟨hiff, ?_⟩
    intro hle
    obtain ⟨written, messages, hrender⟩ := hok hle
    rw [hrender]
  · intro controller request bs sink hcheck hanswer hlength hroom hflush
    rw [retrieve_of_answer hcheck hanswer]
    refine deliver_of_le ?_ hroom hflush
    rw [hlength]
    exact request.minimumSize_le_size _

/-- A page of ones is decoded, and shown by a controller that fills every answer with ones. -/
theorem retrieve_of_size_ones :
    (((∃ shortfall, (Decoder.hgstInfo.render 0xc1 [0xff, 0xff, 0xff] {}).1 =
          .error (.decode 0xc1 shortfall)) ↔ 3 < Decoder.hgstInfo.minimumSize) ∧
      (Decoder.hgstInfo.render 0xc1 [0xff, 0xff, 0xff, 0xff, 0xff] {}).1 = .ok ()) ∧
    (retrieve
      { namespaceSmart := true, lastErrorEntry := 3
        answer := fun query => { result := .ok (List.replicate query.size 0xff) } }
      { page := .healthInformation, namespaceId := some 1 } {}).result = .ok () :=
  ⟨⟨(retrieve_of_size.1 .hgstInfo 0xc1 [0xff, 0xff, 0xff] {} rfl).1,
      (retrieve_of_size.1 .hgstInfo 0xc1 [0xff, 0xff, 0xff, 0xff, 0xff] {} rfl).2 (by decide)⟩,
    retrieve_of_size.2 _ _ _ {} rfl rfl List.length_replicate rfl rfl⟩

end Controller

end DriveLog
