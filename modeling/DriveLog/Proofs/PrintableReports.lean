import DriveLog.Proofs.SufficientPages
import DriveLog.Text.Printable

/-! What a report may hold. Every line of every report is printable, whatever the bytes of
the page: numbers are shown as numerals, labels come from tables or are made from numerals,
and the only bytes shown as characters, those of a firmware revision, are looked at first.
So the text of a report holds no control character but the ends of its own lines. -/

namespace DriveLog

open Text

namespace Report

/-- Every line is printable. -/
def IsPrintable (r : Report) : Prop := ∀ line ∈ r, Printable line

variable {α : Type} {r r' : Report} {line : String}

@[simp] theorem isPrintable_nil : IsPrintable [] := by
  intro line hline
  cases hline

@[simp] theorem isPrintable_cons :
    IsPrintable (line :: r) ↔ Printable line ∧ IsPrintable r := List.forall_mem_cons

@[simp] theorem isPrintable_append :
    IsPrintable (r ++ r') ↔ IsPrintable r ∧ IsPrintable r' := List.forall_mem_append

theorem isPrintable_map {as : List α} {f : α → String} (h : ∀ a ∈ as, Printable (f a)) :
    IsPrintable (as.map f) := List.forall_mem_map.mpr h

theorem isPrintable_flatMap {as : List α} {f : α → Report} (h : ∀ a ∈ as, IsPrintable (f a)) :
    IsPrintable (as.flatMap f) := by
  intro line hline
  obtain ⟨a, ha, hmem⟩ := List.mem_flatMap.mp hline
  exact h a ha line hmem

theorem isPrintable_toList {f : α → String} (h : ∀ a, Printable (f a)) (o : Option α) :
    IsPrintable (o.map f).toList := by
  cases o with
  | none => exact isPrintable_nil
  | some a => exact isPrintable_cons.mpr ⟨h a, isPrintable_nil⟩

@[simp] theorem printable_column {width : Nat} {label value : String} :
    Printable (column width label value) ↔ Printable label ∧ Printable value := by
  unfold column
  simp

@[simp] theorem printable_field {indent : Nat} {label value : String} :
    Printable (field indent label value) ↔ Printable label ∧ Printable value := by
  unfold field
  simp +decide

theorem isPrintable_heading {title : String} (h : Printable title) :
    IsPrintable (heading title) := by
  have hline : Printable (String.ofList (List.replicate title.length '=')) := by
    intro c hc
    rw [String.toList_ofList] at hc
    rw [List.eq_of_mem_replicate hc]
    decide
  exact isPrintable_cons.mpr ⟨h, isPrintable_cons.mpr ⟨hline, isPrintable_nil⟩⟩

/-! ### The text of a report -/

variable {b : UInt8}

theorem utf8_text (r : Report) : utf8 r.text = r.flatMap fun line => utf8 line ++ [0x0a] := by
  have hwritten : ∀ line, utf8 (written line) = utf8 line ++ [0x0a] := by
    intro line
    exact utf8_append line "\n"
  rw [text, utf8_join, List.flatMap_map]
  simp only [hwritten]

theorem ascii_text (h : r.IsPrintable) : ∀ c ∈ r.text.toList, c.toNat < 0x80 := by
  intro c hc
  rw [text, String.toList_join, List.flatMap_map, List.mem_flatMap] at hc
  obtain ⟨line, hline, hmem⟩ := hc
  rw [written, String.toList_append] at hmem
  rcases List.mem_append.mp hmem with hmem | hmem
  · exact (h line hline).ascii c hmem
  · rw [List.mem_singleton.mp hmem]
    decide

theorem mem_utf8_text (h : r.IsPrintable) (hb : b ∈ utf8 r.text) :
    b = 0x0a ∨ 0x20 ≤ b ∧ b ≤ 0x7e := by
  rw [utf8_text] at hb
  obtain ⟨line, hline, hmem⟩ := List.mem_flatMap.mp hb
  rcases List.mem_append.mp hmem with hmem | hmem
  · exact .inr ((h line hline).mem_utf8 hmem)
  · exact .inl (List.mem_singleton.mp hmem)

theorem getLast?_utf8_text (h : r ≠ []) : (utf8 r.text).getLast? = some 0x0a := by
  rw [utf8_text, ← List.dropLast_concat_getLast h, List.flatMap_append]
  simp

/-- Lines end where the report's own lines end, and nowhere else. -/
theorem count_utf8_text (h : r.IsPrintable) : (utf8 r.text).count 0x0a = r.length := by
  rw [utf8_text]
  induction r with
  | nil => rfl
  | cons line rest ih =>
    obtain ⟨hline, hrest⟩ := isPrintable_cons.mp h
    have hnone : (utf8 line).count 0x0a = 0 := by
      apply List.count_eq_zero_of_not_mem
      intro hmem
      exact absurd (hline.mem_utf8 hmem).1 (by decide)
    rw [List.flatMap_cons, List.count_append, List.count_append, hnone, ih hrest,
      List.count_singleton_self, List.length_cons]
    omega

end Report

open Report

theorem Shortfall.printable_message (s : Shortfall) : Printable s.message := by
  unfold Shortfall.message
  simp +decide

theorem Temperature.printable_text (t : Temperature) : Printable t.text := by
  unfold Temperature.text
  simp +decide

/-- A table of printable names labels every key with printable text. -/
theorem LabelTable.printable_label {table : LabelTable}
    (h : ∀ entry ∈ table, Printable entry.2) (key : Nat) : Printable (table.label key).text := by
  unfold LabelTable.label
  split
  · rename_i name hname
    obtain ⟨before, after, rfl, _⟩ := List.lookup_eq_some_iff.mp hname
    exact h (key, name) (by simp)
  · unfold Label.text
    simp +decide

/-! ## Standard pages -/

namespace ErrorLog

theorem isPrintable_entry (number : Nat) (e : ErrorEntry) : (e.report number).IsPrintable := by
  unfold ErrorEntry.report
  simp +decide [ErrorEntry.report.item]

theorem isPrintable_report (log : ErrorLog) : log.report.IsPrintable := by
  unfold report
  refine isPrintable_append.mpr ⟨isPrintable_heading (by decide), ?_⟩
  split
  · simp +decide
  · apply isPrintable_flatMap
    rintro ⟨e, number⟩ _
    exact isPrintable_entry number e

end ErrorLog

namespace Counter

theorem printableChar_of_mem_digits {n : Nat} {cells : List Char} {c : Char}
    (h : c ∈ (fillBackwards n cells).digits) : PrintableChar c := by
  induction cells generalizing n with
  | nil => cases h
  | cons cell cells ih =>
    unfold fillBackwards at h
    split at h
    · cases h
    · rcases List.mem_append.mp h with h | h
      · exact ih h
      · rw [List.mem_singleton.mp h]
        exact printableChar_digitChar (by omega)

theorem printable_of_writeDecimal {n : Nat} {cells : List Char} {s : String}
    (h : (writeDecimal n cells).1 = some s) : Printable s := by
  unfold writeDecimal at h
  split at h
  · cases h
  · rename_i last before _
    simp only [Filling.numeral?] at h
    split at h
    · cases h
      intro c hc
      rw [String.toList_ofList] at hc
      rcases List.mem_append.mp hc with hc | hc
      · exact printableChar_of_mem_digits hc
      · rw [List.mem_singleton.mp hc]
        exact printableChar_digitChar (by omega)
    · cases h

@[simp] theorem printable_numeral {width : CounterWidth} (c : Counter width) :
    Printable c.numeral :=
  printable_of_writeDecimal (Option.some_get c.scratch_fits).symm

end Counter

namespace Health

@[simp] theorem printable_item {name value : String} :
    Printable (report.item name value) ↔ Printable name ∧ Printable value := by
  unfold report.item
  simp +decide

theorem printable_counterNames (h : Health) : ∀ entry ∈ h.counters, Printable entry.1 := by
  unfold counters
  simp +decide

theorem isPrintable_report (h : Health) : h.report.IsPrintable := by
  unfold report
  simp only [isPrintable_append]
  refine ⟨⟨⟨⟨isPrintable_heading (by decide), ?values⟩, ?counters⟩, ?times⟩, ?sensors⟩
  case values => simp +decide [Temperature.printable_text]
  case counters =>
    apply isPrintable_map
    rintro ⟨name, n⟩ hmem
    exact printable_item.mpr ⟨h.printable_counterNames _ hmem, Counter.printable_numeral _⟩
  case times => simp +decide
  case sensors =>
    apply isPrintable_map
    rintro ⟨number, t⟩ _
    simp +decide [Temperature.printable_text]

end Health

namespace FirmwareSlots

theorem printableChar_ofUInt8 {b : UInt8} (h : Revision.isPrintable b = true) :
    PrintableChar (Char.ofUInt8 b) := by
  unfold Revision.isPrintable at h
  simp only [Bool.and_eq_true, decide_eq_true_eq, UInt8.le_iff_toNat_le] at h
  exact h

/-- Bytes are shown as text only if all of them are printable. -/
theorem printable_shown (bs : Bytes) : Printable (Revision.ofBytes bs).shown := by
  unfold Revision.ofBytes
  simp only
  split
  · decide
  · split
    · rename_i hall
      intro c hc
      simp only [Revision.shown, String.toList_ofList] at hc
      obtain ⟨b, hb, rfl⟩ := List.mem_map.mp hc
      exact printableChar_ofUInt8 (List.all_eq_true.mp hall b hb)
    · exact printable_hexDigits _ _

theorem printable_slotLine {f : FirmwareSlots} {number : Nat} {revision : Revision}
    (h : Printable revision.shown) : Printable (f.slotLine number revision) := by
  unfold slotLine
  split
  · simp +decide
  · split <;> simp +decide [h]

theorem isPrintable_report (f : FirmwareSlots) : f.report.IsPrintable := by
  unfold report
  refine isPrintable_append.mpr
    ⟨isPrintable_append.mpr ⟨isPrintable_heading (by decide), ?_⟩, ?_⟩
  · apply isPrintable_map
    rintro ⟨number, revision⟩ hmem
    obtain ⟨⟨bs, _⟩, _, heq⟩ := List.mem_map.mp hmem
    cases heq
    exact printable_slotLine (printable_shown bs)
  · split <;> simp +decide

theorem length_revisions (bs : Bytes) :
    (Record.decode bs : FirmwareSlots).revisions.length = 7 := rfl

theorem nextSlot_decode (bs : Bytes) :
    (Record.decode bs : FirmwareSlots).nextSlot = Bytes.numberAt 0 1 bs / 0x10 % 8 := rfl

/-- Two lines of heading, one for each slot, and one for the slot to run next if there is one. -/
theorem length_report {f : FirmwareSlots} (h : f.revisions.length = 7) :
    f.report.length = if f.nextSlot = 0 then 9 else 10 := by
  unfold report slots
  split <;> simp [heading, h]

end FirmwareSlots

/-! ## Vendor pages -/

namespace Intel

theorem TemperatureStats.isPrintable_report (s : TemperatureStats) : s.report.IsPrintable := by
  unfold report
  simp +decide [isPrintable_heading, report.item, report.kelvin, Temperature.printable_text]

theorem Attribute.printable_rawText (a : Attribute) : Printable a.rawText := by
  unfold rawText
  split <;> simp +decide

theorem Attribute.printable_line (a : Attribute) : Printable a.line := by
  have hlabel : Printable a.label.text := LabelTable.printable_label (by decide) a.key
  unfold line
  simp +decide [hlabel, a.printable_rawText]

theorem AdditionalSmart.isPrintable_report (log : AdditionalSmart) : log.report.IsPrintable := by
  unfold report
  refine isPrintable_append.mpr ⟨isPrintable_heading (by decide), isPrintable_map ?_⟩
  intro a _
  exact a.printable_line

end Intel

namespace Hgst

theorem Anomaly.printable_message (anomaly : Anomaly) : Printable anomaly.message := by
  unfold message
  cases anomaly <;> simp +decide [Shortfall.printable_message]

theorem Parameter.label_of_read {table : LabelTable} {w w' : Window} {p : Parameter}
    (h : (reader table).read w = .ok (p, w')) : p.label = table.label p.code := by
  have hread : read table w = .ok (p, w') := h
  simp only [read, Reader.bind_eq_ok_iff, Reader.pure_eq_ok_iff] at hread
  obtain ⟨_, _, _, _, _, _, _, _, _, _, _, _, rfl, _⟩ := hread
  rfl

theorem MediaOperation.printable_labels (operation : MediaOperation) :
    ∀ entry ∈ operation.labels, Printable entry.2 := by
  cases operation <;> decide

namespace Subpage

theorem isPrintable_parameters (operation : MediaOperation) (payload : Bytes) :
    (ParameterList.ofBytes operation.labels payload).report.IsPrintable := by
  -- A label is not a field that the report checks: it comes from the table by the reading.
  have hlabels := ((Parameter.reader operation.labels).walk_reads (.ofBytes payload)).forall_mem
    Parameter.label_of_read
  unfold ParameterList.report
  refine isPrintable_append.mpr ⟨isPrintable_map ?_, ?_⟩
  · intro p hp
    have hlabel : Printable p.label.text := by
      rw [hlabels p hp]
      exact LabelTable.printable_label operation.printable_labels p.code
    unfold Parameter.line
    exact printable_field.mpr ⟨hlabel, printable_decimal p.value⟩
  · split
    · exact isPrintable_nil
    · simp +decide [Shortfall.printable_message]

theorem isPrintable_selfTest (log : SelfTestLog) : log.report.IsPrintable := by
  unfold SelfTestLog.report
  refine isPrintable_append.mpr ⟨isPrintable_append.mpr ⟨by simp +decide, ?_⟩, ?_⟩
  · apply isPrintable_flatMap
    intro result _
    unfold SelfTestResult.report
    simp +decide [SelfTestResult.report.item]
  · exact isPrintable_toList Anomaly.printable_message _

theorem printable_scanStatus (status : ScanStatus) : Printable status.shown := by
  unfold ScanStatus.shown
  cases status <;> simp +decide

theorem isPrintable_header (slots : Nat) (header : ScanHeader) :
    (MediaScan.headerReport slots header).IsPrintable := by
  unfold MediaScan.headerReport
  simp +decide [printable_scanStatus]

theorem isPrintable_retirement (retirement : Retirement) : retirement.report.IsPrintable := by
  unfold Retirement.report
  cases retirement <;> simp +decide

theorem isPrintable_mediaScan (scan : MediaScan) : scan.report.IsPrintable := by
  have hheader : ((scan.header.map (MediaScan.headerReport scan.slots)).getD []).IsPrintable := by
    cases scan.header with
    | none => exact isPrintable_nil
    | some header => exact isPrintable_header _ header
  have hretirements : IsPrintable (scan.retirements.flatMap Retirement.report) :=
    isPrintable_flatMap fun retirement _ => isPrintable_retirement retirement
  have hfault := isPrintable_toList Anomaly.printable_message scan.fault
  unfold MediaScan.report
  simp +decide [hheader, hretirements, hfault]

theorem isPrintable_orAnomaly {α : Type} {shown : α → Report}
    (h : ∀ a, (shown a).IsPrintable) (read : Except Anomaly α) :
    (Subpage.report.orAnomaly shown read).IsPrintable := by
  unfold Subpage.report.orAnomaly
  cases read with
  | ok a => exact h a
  | error anomaly => simp +decide [anomaly.printable_message]

theorem isPrintable_history (history : TemperatureHistory) : history.report.IsPrintable := by
  unfold TemperatureHistory.report
  simp +decide [TemperatureHistory.report.degrees, clock]

theorem isPrintable_counters (counters : PerformanceCounters) :
    counters.report.IsPrintable := by
  have hnames : ∀ name ∈ PerformanceCounters.names, Printable name := by decide
  unfold PerformanceCounters.report
  apply isPrintable_map
  rintro ⟨name, n⟩ hmem
  exact printable_field.mpr ⟨hnames name (List.of_mem_zip hmem).1, printable_decimal n⟩

theorem isPrintable_firmwareLoad (load : FirmwareLoad) : load.report.IsPrintable := by
  unfold FirmwareLoad.report
  simp +decide

/-- What a payload is decoded to is shown in printable lines, whatever the payload. -/
theorem isPrintable_ofPayload (subtype reserved : Nat) (payload : Bytes) :
    (ofPayload subtype reserved payload).report.IsPrintable := by
  have hparameters : ∀ operation : MediaOperation,
      (ofPayload.counters payload operation).report.IsPrintable := by
    intro operation
    have hheading : Printable operation.heading := by cases operation <;> decide
    unfold ofPayload.counters report
    simp [hheading, isPrintable_parameters]
  unfold ofPayload
  split
  case h_1 => exact hparameters .write
  case h_2 => exact hparameters .read
  case h_3 => exact hparameters .verify
  case h_4 => exact isPrintable_selfTest _
  case h_5 => exact isPrintable_mediaScan _
  case h_6 => exact hparameters .erase
  all_goals unfold report
  case h_7 => simp +decide
  case h_8 => simp +decide [isPrintable_orAnomaly isPrintable_history]
  case h_9 => simp +decide [isPrintable_orAnomaly isPrintable_counters]
  case h_10 => simp +decide [isPrintable_orAnomaly isPrintable_firmwareLoad]
  case h_11 => simp +decide

end Subpage

theorem SubpageEntry.body_of_read {w w' : Window} {entry : SubpageEntry}
    (h : reader.read w = .ok (entry, w')) :
    ∃ subtype reserved payload, entry.body = .ofPayload subtype reserved payload := by
  have hread : read w = .ok (entry, w') := h
  simp only [read, Reader.bind_eq_ok_iff, Reader.pure_eq_ok_iff] at hread
  obtain ⟨_, _, _, _, _, _, _, _, _, _, _, _, _, _, _, rfl, _⟩ := hread
  exact ⟨_, _, _, rfl⟩

/-- A subpage of a decoded page is what its own payload is decoded to. -/
theorem InfoPage.exists_payload_of_mem {bs : Bytes} {page : InfoPage} {entry : SubpageEntry}
    (h : ofBytes? bs = .ok page) (hentry : entry ∈ page.subpages) :
    ∃ subtype reserved payload, entry.body = .ofPayload subtype reserved payload := by
  have hle := le_length_of_ofBytes? h
  obtain rfl : _ = page := Except.ok.inj ((ofBytes?_of_le hle).symm.trans h)
  exact (SubpageEntry.reader.walk_reads (list bs)).forall_mem SubpageEntry.body_of_read
    entry hentry

theorem InfoPage.isPrintable_body {bs : Bytes} {page : InfoPage} (h : ofBytes? bs = .ok page) :
    ∀ entry ∈ page.subpages, entry.body.report.IsPrintable := by
  intro entry hentry
  obtain ⟨subtype, reserved, payload, hbody⟩ := exists_payload_of_mem h hentry
  rw [hbody]
  exact Subpage.isPrintable_ofPayload subtype reserved payload

theorem InfoPage.isPrintable_report {bs : Bytes} {page : InfoPage}
    (h : ofBytes? bs = .ok page) : page.report.IsPrintable := by
  have hoverrun := isPrintable_toList
    (fun overrun : Overrun => overrun.anomaly.printable_message) page.overrun
  unfold report
  simp +decide [isPrintable_heading, isPrintable_flatMap (isPrintable_body h), hoverrun]

end Hgst

/-! ## Dumps -/

theorem PageId.printable_title (page : PageId) : Printable page.title := by
  unfold PageId.title PageId.name?
  cases hname : PageId.names.lookup page with
  | none => decide
  | some name =>
    have hall : ∀ entry ∈ PageId.names, Printable entry.2 := by decide
    obtain ⟨before, after, heq, _⟩ := List.lookup_eq_some_iff.mp hname
    exact hall (page, name) (by simp [heq])

theorem HexDump.isPrintable_report {title : String} (h : Printable title) (page : UInt8)
    (bs : Bytes) : (report title page bs).IsPrintable := by
  unfold report
  refine isPrintable_append.mpr ⟨isPrintable_append.mpr ⟨?_, ?_⟩, ?_⟩
  · simp +decide [h]
  · apply isPrintable_map
    rintro ⟨offset, row⟩ _
    have hbytes : Printable (String.join (row.map fun b => " " ++ hexDigits 2 b.toNat)) := by
      apply printable_join
      intro piece hpiece
      obtain ⟨b, _, rfl⟩ := List.mem_map.mp hpiece
      simp +decide
    unfold rowLine
    simp +decide [hbytes]
  · split <;> simp +decide

/-! ## Decoders -/

namespace Decoder

variable {decoder : Decoder} {page : PageId} {bs : Bytes} {decoded : Decoded}

theorem exists_of_bind_eq_ok {ε α β : Type} {x : Except ε α} {f : α → Except ε β} {b : β}
    (h : x >>= f = .ok b) : ∃ a, x = .ok a ∧ f a = .ok b := by
  cases x with
  | error e => cases h
  | ok a => exact ⟨a, rfl, h⟩

theorem isPrintable_of_decode (h : decoder.decode page bs = .ok decoded) :
    decoded.report.IsPrintable := by
  cases decoder with
  | errorLog =>
    obtain ⟨log, _, hdecoded⟩ := exists_of_bind_eq_ok h
    cases hdecoded
    exact log.isPrintable_report
  | health =>
    obtain ⟨health, _, hdecoded⟩ := exists_of_bind_eq_ok h
    cases hdecoded
    exact health.isPrintable_report
  | firmwareSlot =>
    obtain ⟨slots, _, hdecoded⟩ := exists_of_bind_eq_ok h
    cases hdecoded
    exact slots.isPrintable_report
  | hgstInfo =>
    obtain ⟨info, hinfo, hdecoded⟩ := exists_of_bind_eq_ok h
    cases hdecoded
    exact Hgst.InfoPage.isPrintable_report hinfo
  | intelTemperature =>
    obtain ⟨stats, _, hdecoded⟩ := exists_of_bind_eq_ok h
    cases hdecoded
    exact stats.isPrintable_report
  | intelAdditionalSmart =>
    obtain ⟨log, _, hdecoded⟩ := exists_of_bind_eq_ok h
    cases hdecoded
    exact log.isPrintable_report
  | hex =>
    cases h
    exact HexDump.isPrintable_report page.printable_title page bs

/-- Every report starts with a title. -/
theorem ne_nil_of_decode (h : decoder.decode page bs = .ok decoded) : decoded.report ≠ [] := by
  cases decoder
  case hex =>
    cases h
    exact List.cons_ne_nil _ _
  all_goals
    obtain ⟨read, _, hdecoded⟩ := exists_of_bind_eq_ok h
    cases hdecoded
    exact List.cons_ne_nil _ _

theorem length_of_decode (h : firmwareSlot.decode page bs = .ok decoded) :
    decoded.report.length = if Bytes.numberAt 0 1 bs / 0x10 % 8 = 0 then 9 else 10 := by
  obtain ⟨slots, hslots, hdecoded⟩ := exists_of_bind_eq_ok h
  cases hdecoded
  rcases Nat.lt_or_ge bs.length (Record.size FirmwareSlots) with hlt | hle
  · cases (Record.ofBytes?_of_lt hlt).symm.trans hslots
  · cases (Record.ofBytes?_of_le hle).symm.trans hslots
    rw [FirmwareSlots.length_report (FirmwareSlots.length_revisions bs),
      FirmwareSlots.nextSlot_decode]

/-- What is rendered is the text of a report that the page alone decides. -/
theorem decode_of_render {sink after : Sink} {messages : List Message}
    (h : decoder.render page bs sink = (.ok (), after, messages)) :
    ∃ decoded, decoder.decode page bs = .ok decoded ∧
      after.written = sink.written ++ decoded.report.text := by
  unfold render at h
  cases hdecode : decoder.decode page bs with
  | error shortfall =>
    rw [hdecode] at h
    cases h
  | ok decoded =>
    simp only [hdecode, Sink.writeReport_eq_write] at h
    rcases hwrite : sink.write decoded.report.text with ⟨_ | _, written⟩
    · rw [hwrite] at h
      cases h
    · rw [hwrite] at h
      cases h
      exact ⟨decoded, rfl, Sink.written_of_write hwrite⟩

/-- Whatever a device answers, what is written is whole lines of printable text; and the
firmware report has as many lines as there are slots to tell of, whatever the revisions. -/
theorem render_printable {sink after : Sink} {messages : List Message}
    (h : decoder.render page bs sink = (.ok (), after, messages)) :
    ∃ text, after.written = sink.written ++ text ∧
      utf8 text ≠ [] ∧ (utf8 text).getLast? = some 0x0a ∧
      (∀ b ∈ utf8 text, b = 0x0a ∨ 0x20 ≤ b ∧ b ≤ 0x7e) ∧
      (decoder = .firmwareSlot → (utf8 text).count 0x0a =
        if Bytes.numberAt 0 1 bs / 0x10 % 8 = 0 then 9 else 10) := by
  obtain ⟨decoded, hdecode, hwritten⟩ := decode_of_render h
  have hprintable := isPrintable_of_decode hdecode
  have hlast := getLast?_utf8_text (ne_nil_of_decode hdecode)
  refine ⟨decoded.report.text, hwritten, ?_, hlast, ?_, ?_⟩
  · intro hempty
    rw [hempty] at hlast
    cases hlast
  · intro b hb
    exact mem_utf8_text hprintable hb
  · rintro rfl
    rw [count_utf8_text hprintable]
    exact length_of_decode hdecode

/-- A firmware page of escapes is shown on ten lines of printable text. -/
theorem render_printable_escapes :
    ∃ after messages text,
      firmwareSlot.render 0x03 (List.replicate 512 0x1b) {} = (.ok (), after, messages) ∧
      after.written = text ∧ utf8 text ≠ [] ∧ (utf8 text).getLast? = some 0x0a ∧
      (∀ b ∈ utf8 text, b = 0x0a ∨ 0x20 ≤ b ∧ b ≤ 0x7e) ∧ (utf8 text).count 0x0a = 10 := by
  have hsize : firmwareSlot.minimumSize ≤ (List.replicate 512 (0x1b : UInt8)).length := by
    rw [List.length_replicate]
    decide
  have hroom : ({} : Sink).room = none := rfl
  obtain ⟨written, messages, hrender⟩ := (render_of_room hroom).2 hsize
  obtain ⟨text, hwritten, hne, hlast, hbytes, hcount⟩ := render_printable hrender
  refine ⟨_, messages, text, hrender, ?_, hne, hlast, hbytes, hcount rfl⟩
  rw [hwritten]
  exact String.empty_append

end Decoder

end DriveLog
