import DriveLog.Retrieval.Bench

/-! What a retrieval asks of a controller and what it leaves behind when it fails, and that
this is so for every retrieval of a session: however often the settings of a controller
have changed, a retrieval goes by those that hold when it is made. -/

namespace DriveLog

namespace Request

variable {request : Request} {namespaceId : UInt32} {namespaceSmart : Bool}

theorem check_of_scoped (h : request.namespaceId = some namespaceId)
    (hpage : request.page ≠ 0x02) (namespaceSmart : Bool) :
    request.check namespaceSmart = .error (.controllerScopedPage request.page) := by
  have hother : request.page ≠ .healthInformation := hpage
  rw [check, h, if_pos hother]
  rfl

theorem check_of_unsupported (h : request.namespaceId = some namespaceId)
    (hpage : request.page = 0x02) :
    request.check false = .error .namespaceSmartUnsupported := by
  have hhealth : ¬ request.page ≠ .healthInformation := not_not_intro hpage
  rw [check, h, if_neg hhealth]
  rfl

theorem check_of_valid
    (h : request.namespaceId = none ∨ request.page = 0x02 ∧ namespaceSmart = true) :
    request.check namespaceSmart = .ok () := by
  cases hnamespace : request.namespaceId with
  | none =>
    rw [check, hnamespace]
    rfl
  | some namespaceId =>
    rw [hnamespace] at h
    obtain ⟨hpage, hsmart⟩ := h.resolve_left (Option.some_ne_none namespaceId)
    have hhealth : ¬ request.page ≠ .healthInformation := not_not_intro hpage
    rw [check, hnamespace, if_neg hhealth, hsmart]
    rfl

theorem query_eq (request : Request) (lastErrorEntry : UInt8) :
    request.query lastErrorEntry =
      ⟨request.page, request.namespaceId.getD 0xffffffff,
        if request.page = 0x01 then 64 * (lastErrorEntry.toNat + 1)
        else (Decoder.choose request.page request.asHex).size⟩ := rfl

end Request

/-- What a retrieval does by the protocol. A request that makes no sense is refused and
nothing is asked; any other is asked once. A failure before the report is there leaves the
sink as it was. -/
structure Conforms (controller : Controller) (request : Request) (sink : Sink)
    (outcome : Outcome) : Prop where
  wrongPage : ∀ namespaceId, request.namespaceId = some namespaceId → request.page ≠ 0x02 →
    outcome = { result := .error (.controllerScopedPage request.page), sink }
  noSupport : ∀ namespaceId, request.namespaceId = some namespaceId → request.page = 0x02 →
    controller.namespaceSmart = false →
    outcome = { result := .error .namespaceSmartUnsupported, sink }
  asked : request.namespaceId = none ∨
      request.page = 0x02 ∧ controller.namespaceSmart = true →
    outcome.queries = [⟨request.page, request.namespaceId.getD 0xffffffff,
      if request.page = 0x01 then 64 * (controller.lastErrorEntry.toNat + 1)
      else (Decoder.choose request.page request.asHex).size⟩]
  unanswered : ∀ query source, outcome.queries = [query] →
    (controller.answer query).result = .error source →
    outcome.result = .error (.transport request.page source) ∧ outcome.sink = sink
  undecoded : ∀ query bs shortfall, outcome.queries = [query] →
    (controller.answer query).result = .ok bs →
    (Decoder.choose request.page request.asHex).decoder.decode request.page bs =
      .error shortfall →
    outcome.result = .error (.decode request.page shortfall) ∧ outcome.sink = sink

namespace Controller

variable {controller : Controller} {request : Request}

theorem conforms_of_wrongPage {namespaceId : UInt32}
    (h : request.namespaceId = some namespaceId) (hpage : request.page ≠ 0x02) (sink : Sink) :
    Conforms controller request sink (controller.retrieve request sink) := by
  rw [retrieve_of_check (Request.check_of_scoped h hpage _)]
  refine ⟨fun _ _ _ => rfl, ?_, ?_, ?_, ?_⟩
  · intro _ _ hhealth
    exact absurd hhealth hpage
  · rintro (hnone | ⟨hhealth, _⟩)
    · cases h.symm.trans hnone
    · exact absurd hhealth hpage
  · intro query source hqueries
    cases hqueries
  · intro query bs shortfall hqueries
    cases hqueries

theorem conforms_of_noSupport {namespaceId : UInt32}
    (h : request.namespaceId = some namespaceId) (hpage : request.page = 0x02)
    (hsmart : controller.namespaceSmart = false) (sink : Sink) :
    Conforms controller request sink (controller.retrieve request sink) := by
  have hcheck : request.check controller.namespaceSmart = .error .namespaceSmartUnsupported := by
    rw [hsmart]
    exact Request.check_of_unsupported h hpage
  rw [retrieve_of_check hcheck]
  refine ⟨?_, fun _ _ _ _ => rfl, ?_, ?_, ?_⟩
  · intro _ _ hother
    exact absurd hpage hother
  · rintro (hnone | ⟨_, hsupport⟩)
    · cases h.symm.trans hnone
    · cases hsmart.symm.trans hsupport
  · intro query source hqueries
    cases hqueries
  · intro query bs shortfall hqueries
    cases hqueries

theorem queries_retrieve (hcheck : request.check controller.namespaceSmart = .ok ())
    (sink : Sink) :
    (controller.retrieve request sink).queries = [request.query controller.lastErrorEntry] := by
  cases hanswer : (controller.answer (request.query controller.lastErrorEntry)).result with
  | error source =>
    obtain ⟨messages, hretrieve⟩ := retrieve_of_transport hcheck hanswer sink
    rw [hretrieve]
  | ok bs =>
    obtain ⟨messages, hretrieve⟩ := retrieve_of_ok hcheck hanswer sink
    rw [hretrieve]

theorem conforms_of_valid
    (h : request.namespaceId = none ∨ request.page = 0x02 ∧ controller.namespaceSmart = true)
    (sink : Sink) : Conforms controller request sink (controller.retrieve request sink) := by
  have hcheck := Request.check_of_valid h
  have hqueries := queries_retrieve hcheck sink
  refine ⟨?_, ?_, ?_, ?_, ?_⟩
  · intro namespaceId hsome hother
    rw [hsome] at h
    exact absurd (h.resolve_left (Option.some_ne_none namespaceId)).1 hother
  · intro namespaceId hsome _ hunsupported
    rw [hsome] at h
    cases hunsupported.symm.trans (h.resolve_left (Option.some_ne_none namespaceId)).2
  · intro _
    rw [hqueries, Request.query_eq]
  · intro query source hquery hanswer
    obtain rfl : _ = query := List.singleton_inj.mp (hqueries.symm.trans hquery)
    obtain ⟨messages, hretrieve⟩ := retrieve_of_transport hcheck hanswer sink
    rw [hretrieve]
    exact ⟨rfl, rfl⟩
  · intro query bs shortfall hquery hanswer hdecode
    obtain rfl : _ = query := List.singleton_inj.mp (hqueries.symm.trans hquery)
    obtain ⟨messages, hretrieve⟩ := retrieve_of_ok hcheck hanswer sink
    obtain ⟨_, hdeliver⟩ := deliver_of_error hdecode sink
    rw [hretrieve, hdeliver]
    exact ⟨rfl, rfl⟩

theorem conforms_retrieve (controller : Controller) (request : Request) (sink : Sink) :
    Conforms controller request sink (controller.retrieve request sink) := by
  cases hnamespace : request.namespaceId with
  | none => exact conforms_of_valid (.inl hnamespace) sink
  | some namespaceId =>
    by_cases hpage : request.page = 0x02
    · cases hsmart : controller.namespaceSmart with
      | true => exact conforms_of_valid (.inr ⟨hpage, hsmart⟩) sink
      | false => exact conforms_of_noSupport hnamespace hpage hsmart sink
    · exact conforms_of_wrongPage hnamespace hpage sink

end Controller

namespace Bench

variable {request : Request} {sink : Sink}

/-- The settings after some steps of a session. Only changes count. -/
def after (bench : Bench) : List Step → Bench
  | [] => bench
  | .change change :: steps => (bench.apply change).after steps
  | .retrieve _ _ :: steps => bench.after steps

@[simp] theorem length_run (bench : Bench) (steps : List Step) :
    (bench.run steps).length = steps.length := by
  induction steps generalizing bench with
  | nil => rfl
  | cons step steps ih =>
    cases step with
    | change change => exact congrArg (· + 1) (ih _)
    | retrieve request sink => exact congrArg (· + 1) (ih _)

/-- A retrieval in a session is the retrieval under the settings that hold by then. -/
theorem getElem?_run {steps : List Step} {k : Nat}
    (h : steps[k]? = some (.retrieve request sink)) (bench : Bench) :
    (bench.run steps)[k]? =
      some (some ((bench.after (steps.take k)).controller.retrieve request sink)) := by
  -- The settings vary in the induction: a change before step `k` is applied to them first.
  induction steps generalizing bench k with
  | nil => cases h
  | cons step steps ih =>
    cases k with
    | zero =>
      cases h
      rfl
    | succ k =>
      cases step with
      | change change => exact ih h (bench.apply change)
      | retrieve request sink => exact ih h bench

/-- Every retrieval of a session goes by the protocol under the settings that hold when it
is made, and what it does depends on these and on the request alone: any other session that
comes to the same request under the same settings, however it gets there, has the same
outcome there. -/
theorem run_conforms (bench : Bench) (steps : List Step) :
    (bench.run steps).length = steps.length ∧
    ∀ k request sink, steps[k]? = some (.retrieve request sink) →
      ∃ outcome, (bench.run steps)[k]? = some (some outcome) ∧
        Conforms (bench.after (steps.take k)).controller request sink outcome ∧
        ∀ (bench' : Bench) (steps' : List Step) (k' : Nat),
          steps'[k']? = some (.retrieve request sink) →
          bench'.after (steps'.take k') = bench.after (steps.take k) →
          (bench'.run steps')[k']? = some (some outcome) := by
  refine ⟨length_run bench steps, ?_⟩
  intro k request sink hk
  refine ⟨_, getElem?_run hk bench, Controller.conforms_retrieve _ request sink, ?_⟩
  intro bench' steps' k' hk' hsettings
  rw [getElem?_run hk' bench', hsettings]

/-- After a successful dump and a change, the error log is asked for in its new size; the
failure is passed on, as it is by a controller that starts out with these settings. -/
theorem run_conforms_failing :
    let request : Request := { page := 0x01, asHex := true }
    let failing : Bench := { lastErrorEntry := 2, failure := some (.completion 0x4002) }
    ∃ outcome,
      (run {} [.retrieve request {},
        .change { lastErrorEntry := some 2, failure := some (some (.completion 0x4002)) },
        .retrieve request {}])[2]? = some (some outcome) ∧
      outcome.queries = [⟨0x01, 0xffffffff, 192⟩] ∧
      outcome.result = .error (.transport 0x01 (.completion 0x4002)) ∧ outcome.sink = ({} : Sink) ∧
      (failing.run [.retrieve request {}])[0]? = some (some outcome) := by
  intro request failing
  obtain ⟨outcome, hrun, hconforms, hsame⟩ := (run_conforms {} [.retrieve request {},
    .change { lastErrorEntry := some 2, failure := some (some (.completion 0x4002)) },
    .retrieve request {}]).2 2 request {} rfl
  have hqueries := hconforms.asked (.inl rfl)
  obtain ⟨hresult, hsink⟩ := hconforms.unanswered _ (.completion 0x4002) hqueries rfl
  exact ⟨outcome, hrun, hqueries, hresult, hsink, hsame failing [.retrieve request {}] 0 rfl rfl⟩

end Bench

end DriveLog
