import DriveLog.Bytes.Agreement
import DriveLog.Proofs.DistinctReports
import DriveLog.Proofs.RecordLayouts
import DriveLog.Window.SlotRuns

/-! What the reports of the fixed standard pages tell. Two pages that are accepted read alike
exactly if they agree on the bytes that are reported: no reported bit is lost or merged with
another, and no reserved byte or byte behind the end of the log is seen. -/

namespace DriveLog

open Text

/-! ## Health -/

namespace Health

variable {bs bs' : Bytes} {h h' : Health}

/-- A sensor is listed under its number if it reads anything but zero. -/
theorem mem_sensors {number : Nat} {t : Temperature} :
    (number, t) ∈ h.sensors ↔
      ∃ i, number = i + 1 ∧ h.tempSensors[i]? = some t.kelvin ∧ t.kelvin ≠ 0 := by
  unfold sensors
  rw [List.mem_filterMap]
  constructor
  · rintro ⟨⟨kelvin, place⟩, hmem, hshown⟩
    obtain ⟨hle, hget⟩ := List.mk_mem_zipIdx_iff_le_and_getElem?_sub.mp hmem
    dsimp only at hshown
    by_cases hzero : kelvin = 0
    · rw [if_pos hzero] at hshown
      cases hshown
    · rw [if_neg hzero] at hshown
      cases hshown
      exact ⟨number - 1, by omega, hget, hzero⟩
  · rintro ⟨i, rfl, hget, hne⟩
    refine ⟨(t.kelvin, i + 1), ?_, if_neg hne⟩
    exact List.mk_mem_zipIdx_iff_le_and_getElem?_sub.mpr ⟨Nat.le_add_left 1 i, hget⟩

/-- What is not listed reads zero, so nothing is lost with it. -/
theorem sensors_inj (hlength : h.tempSensors.length = h'.tempSensors.length) :
    h.sensors = h'.sensors ↔ h.tempSensors = h'.tempSensors := by
  constructor
  · intro heq
    have hlisted : ∀ i kelvin : Nat, kelvin ≠ 0 →
        (h.tempSensors[i]? = some kelvin ↔ h'.tempSensors[i]? = some kelvin) := by
      intro i kelvin hne
      have hmem : (i + 1, Temperature.mk kelvin) ∈ h.sensors ↔
          (i + 1, Temperature.mk kelvin) ∈ h'.sensors := by rw [heq]
      simpa [mem_sensors, hne] using hmem
    apply List.ext_getElem hlength
    intro i hi hi'
    have hget := hlisted i h.tempSensors[i]
    have hget' := hlisted i h'.tempSensors[i]
    rw [List.getElem?_eq_getElem hi, List.getElem?_eq_getElem hi', Option.some_inj,
      Option.some_inj] at hget hget'
    by_cases hzero : h.tempSensors[i] = 0
    · by_cases hzero' : h'.tempSensors[i] = 0
      · rw [hzero, hzero']
      · exact (hget' hzero').mpr rfl
    · exact ((hget hzero).mp rfl).symm
  · intro heq
    rw [sensors, heq, sensors]

theorem sensorLine_inj {number number' : Nat} {t t' : Temperature}
    (heq : report.item ("Temperature Sensor " ++ decimal number) t.text =
      report.item ("Temperature Sensor " ++ decimal number') t'.text) :
    (number, t) = (number', t') := by
  unfold report.item Report.column padRight at heq
  simp only [String.append_assoc, String.append_right_inj] at heq
  obtain ⟨rfl, hvalue⟩ := (decimal_append_inj (by simp) (by simp)).mp heq
  rw [String.append_right_inj, String.append_right_inj, Temperature.text_inj] at hvalue
  rw [hvalue]

/-- The lifetime counters fill sixteen bytes at most. -/
def HoldsCounters (h : Health) : Prop := ∀ counter ∈ h.counters, counter.2 < Nat.pow 256 16

theorem holdsCounters_fieldsOf (bs : Bytes) : (fieldsOf bs).HoldsCounters := by
  have hlt := fun offset => Bytes.numberAt_lt offset 16 bs
  simpa [HoldsCounters, counters, fieldsOf] using
    ⟨hlt 32, hlt 48, hlt 64, hlt 80, hlt 96, hlt 112, hlt 128, hlt 144, hlt 160, hlt 176⟩

theorem counterLines_eq (hholds : h.HoldsCounters) :
    (h.counters.map fun (name, n) => report.item name (Counter.ofNat .full n).numeral) =
      h.counters.map fun (name, n) => report.item name (decimal n) := by
  apply List.map_congr_left
  rintro ⟨name, n⟩ hmem
  have hnumeral : (Counter.ofNat .full n).numeral = decimal n := by
    rw [Counter.numeral_eq]
    exact congrArg decimal (Nat.mod_eq_of_lt (hholds _ hmem))
  exact congrArg (report.item name) hnumeral

theorem report_inj (hholds : h.HoldsCounters) (hholds' : h'.HoldsCounters)
    (hlength : h.tempSensors.length = h'.tempSensors.length) :
    h.report = h'.report ↔ h = h' := by
  refine ⟨fun heq => ?_, congrArg report⟩
  unfold report at heq
  rw [counterLines_eq hholds, counterLines_eq hholds'] at heq
  have hlines : ∀ sensor sensor' : Nat × Temperature,
      report.item ("Temperature Sensor " ++ decimal sensor.1) sensor.2.text =
        report.item ("Temperature Sensor " ++ decimal sensor'.1) sensor'.2.text →
          sensor = sensor' := fun _ _ => sensorLine_inj
  simp only [Report.heading, counters, List.map_cons, List.map_nil, List.cons_append,
    List.nil_append, List.cons.injEq, true_and, List.map_inj_right hlines,
    sensors_inj hlength] at heq
  simp only [report.item, Report.column_inj, decimal_inj, hexWord_inj, Temperature.text_inj,
    Temperature.mk.injEq] at heq
  -- The bits of the warning are shown once more behind its byte.
  obtain ⟨hwarning, -, -, -, -, -, hrest⟩ := heq
  cases h
  cases h'
  simpa only [mk.injEq] using ⟨hwarning, hrest⟩

theorem fieldsOf_eq_iff (hsize : 512 ≤ bs.length) (hsize' : 512 ≤ bs'.length) :
    fieldsOf bs = fieldsOf bs' ↔ Bytes.AgreeOn 0 6 bs bs' ∧ Bytes.AgreeOn 32 216 bs bs' := by
  have hfirst := @Bytes.numbersAt_eq_iff bs bs' 6 0 [1, 2, 1, 1, 1] rfl (by omega) (by omega)
  have hrest := @Bytes.numbersAt_eq_iff bs bs' 216 32
    (List.replicate 10 16 ++ [4, 4] ++ List.replicate 8 2) rfl (by omega) (by omega)
  rw [← hfirst, ← hrest]
  simp [fieldsOf, Bytes.numbersAt, List.replicate, List.range_succ, and_assoc]

end Health

/-! ## Temperature statistics -/

namespace Intel.TemperatureStats

variable {bs bs' : Bytes} {s s' : TemperatureStats}

/-- What is shown of the statistics: of a temperature the low sixteen bits. -/
def shown (s : TemperatureStats) : List Nat :=
  [s.current % 0x10000, s.overtempFlagLast, s.overtempFlagLife, s.maxTemp % 0x10000,
    s.minTemp % 0x10000, s.maxOperatingTemp % 0x10000, s.minOperatingTemp % 0x10000,
    s.estimatedOffset]

theorem report_inj : s.report = s'.report ↔ s.shown = s'.shown := by
  have hoffset : decimal s.estimatedOffset ++ " C/K" = decimal s'.estimatedOffset ++ " C/K" ↔
      s.estimatedOffset = s'.estimatedOffset := by
    rw [decimal_append_inj (by simp) (by simp)]
    exact and_iff_left rfl
  simp only [report, shown, report.item, report.kelvin, List.append_cancel_left_eq,
    List.cons.injEq, Report.column_inj, hexWord_inj, Temperature.text_inj, Temperature.mk.injEq,
    hoffset]

theorem shown_fieldsOf (hsize : 104 ≤ bs.length) :
    (fieldsOf bs).shown =
      [bs.numberAt 0 2, bs.numberAt 8 8, bs.numberAt 16 8, bs.numberAt 24 2, bs.numberAt 32 2,
        bs.numberAt 80 2, bs.numberAt 88 2, bs.numberAt 96 8] := by
  have hlow : ∀ offset, offset + 8 ≤ 104 →
      bs.numberAt offset 8 % 0x10000 = bs.numberAt offset 2 :=
    fun _ hfit => Bytes.numberAt_mod (show 2 ≤ 8 by decide) (Nat.le_trans hfit hsize)
  simp only [shown, fieldsOf, hlow 0 (by decide), hlow 24 (by decide), hlow 32 (by decide),
    hlow 80 (by decide), hlow 88 (by decide)]

theorem shown_fieldsOf_eq_iff (hsize : 104 ≤ bs.length) (hsize' : 104 ≤ bs'.length) :
    (fieldsOf bs).shown = (fieldsOf bs').shown ↔
      Bytes.AgreeOn 0 2 bs bs' ∧ Bytes.AgreeOn 8 26 bs bs' ∧ Bytes.AgreeOn 32 34 bs bs' ∧
        Bytes.AgreeOn 80 82 bs bs' ∧ Bytes.AgreeOn 88 90 bs bs' ∧
        Bytes.AgreeOn 96 104 bs bs' := by
  have hrange : ∀ {lo hi : Nat} {widths : List Nat}, Bytes.numbersEnd lo widths = hi → hi ≤ 104 →
      (bs.numbersAt lo widths = bs'.numbersAt lo widths ↔ Bytes.AgreeOn lo hi bs bs') :=
    fun hend hhi =>
      Bytes.numbersAt_eq_iff hend (Nat.le_trans hhi hsize) (Nat.le_trans hhi hsize')
  rw [shown_fieldsOf hsize, shown_fieldsOf hsize',
    ← hrange (show Bytes.numbersEnd 0 [2] = 2 from rfl) (by decide),
    ← hrange (show Bytes.numbersEnd 8 [8, 8, 2] = 26 from rfl) (by decide),
    ← hrange (show Bytes.numbersEnd 32 [2] = 34 from rfl) (by decide),
    ← hrange (show Bytes.numbersEnd 80 [2] = 82 from rfl) (by decide),
    ← hrange (show Bytes.numbersEnd 88 [2] = 90 from rfl) (by decide),
    ← hrange (show Bytes.numbersEnd 96 [8] = 104 from rfl) (by decide)]
  simp only [Bytes.numbersAt, List.cons.injEq, and_true, and_assoc]

end Intel.TemperatureStats

/-! ## Error log -/

namespace Status

/-- What is shown of a status: all bits but those of the retry delay. -/
def shown (s : Status) : List Nat :=
  [s.phaseTag, s.code, s.codeType, s.more, s.doNotRetry]

theorem shown_eq_iff {s s' : Status} :
    s.shown = s'.shown ↔
      ∀ bit < 16, bit ≠ 12 → bit ≠ 13 → s.word.testBit bit = s'.word.testBit bit := by
  have htag := @Bytes.field_eq_iff s.word s'.word 0 1
  rw [Nat.pow_eq, Nat.pow_zero, Nat.div_one, Nat.div_one] at htag
  change s.phaseTag = s'.phaseTag ↔ _ at htag
  have hcode : s.code = s'.code ↔ _ := @Bytes.field_eq_iff s.word s'.word 1 8
  have htype : s.codeType = s'.codeType ↔ _ := @Bytes.field_eq_iff s.word s'.word 9 3
  have hmore : s.more = s'.more ↔ _ := @Bytes.field_eq_iff s.word s'.word 14 1
  have hretry : s.doNotRetry = s'.doNotRetry ↔ _ := @Bytes.field_eq_iff s.word s'.word 15 1
  simp only [shown, List.cons.injEq, and_true, htag, hcode, htype, hmore, hretry]
  constructor
  · rintro ⟨htag, hcode, htype, hmore, hretry⟩ bit hlt h12 h13
    have hplace : bit < 1 ∨ 1 ≤ bit ∧ bit < 9 ∨ 9 ≤ bit ∧ bit < 12 ∨ 14 ≤ bit ∧ bit < 15 ∨
        15 ≤ bit := by omega
    rcases hplace with hin | ⟨hle, hin⟩ | ⟨hle, hin⟩ | ⟨hle, hin⟩ | hle
    · exact htag bit (Nat.zero_le bit) hin
    · exact hcode bit hle hin
    · exact htype bit hle hin
    · exact hmore bit hle hin
    · exact hretry bit hle hlt
  · intro h
    exact ⟨fun bit _ hlt => h bit (by omega) (by omega) (by omega),
      fun bit _ hlt => h bit (by omega) (by omega) (by omega),
      fun bit _ hlt => h bit (by omega) (by omega) (by omega),
      fun bit _ hlt => h bit (by omega) (by omega) (by omega),
      fun bit _ hlt => h bit (by omega) (by omega) (by omega)⟩

end Status

namespace ErrorEntry

variable {e e' : ErrorEntry}

/-- What is shown of an entry. -/
def shown (e : ErrorEntry) : List Nat :=
  [e.errorCount, e.submissionQueue, e.commandId] ++ e.statusField.shown ++
    [e.errorLocation, e.lba, e.namespaceId, e.vendorSpecific]

theorem report_inj {number : Nat} :
    e.report number = e'.report number ↔ e.shown = e'.shown := by
  simp only [report, report.item, shown, Status.shown, List.cons_append, List.nil_append,
    List.cons.injEq, true_and, Report.column_inj, decimal_inj]

theorem length_report (number : Nat) (e : ErrorEntry) : (e.report number).length = 15 := rfl

/-- Two pages with the same data in the slot that begins at an offset. The two bits of the
retry delay are not compared, nor is what is reserved behind the data. -/
def Agree (start : Nat) (bs bs' : Bytes) : Prop :=
  Bytes.AgreeOn start (start + 12) bs bs' ∧
    (∀ bit < 16, bit ≠ 12 → bit ≠ 13 →
      (bs.numberAt (start + 12) 2).testBit bit = (bs'.numberAt (start + 12) 2).testBit bit) ∧
    Bytes.AgreeOn (start + 14) (start + 29) bs bs'

instance {start : Nat} {bs bs' : Bytes} : Decidable (Agree start bs bs') :=
  inferInstanceAs (Decidable (_ ∧ _ ∧ _))

theorem shown_fieldsOf (start : Nat) (bs : Bytes) :
    (fieldsOf (bs.drop start)).shown =
      bs.numbersAt start [8, 2, 2] ++ Status.shown ⟨bs.numberAt (start + 12) 2⟩ ++
        bs.numbersAt (start + 14) [2, 8, 4, 1] := by
  simp only [shown, fieldsOf, statusField, Bytes.numberAt_drop, Bytes.numbersAt, Nat.add_assoc,
    Nat.reduceAdd, Nat.add_zero]

theorem shown_fieldsOf_eq_iff {start : Nat} {bs bs' : Bytes} (hfit : start + 64 ≤ bs.length)
    (hfit' : start + 64 ≤ bs'.length) :
    (fieldsOf (bs.drop start)).shown = (fieldsOf (bs'.drop start)).shown ↔
      Agree start bs bs' := by
  have hfirst := @Bytes.numbersAt_eq_iff bs bs' (start + 12) start [8, 2, 2] rfl (by omega)
    (by omega)
  have hstatus := @Status.shown_eq_iff ⟨bs.numberAt (start + 12) 2⟩ ⟨bs'.numberAt (start + 12) 2⟩
  have hrest := @Bytes.numbersAt_eq_iff bs bs' (start + 29) (start + 14) [2, 8, 4, 1] rfl
    (by omega) (by omega)
  rw [shown_fieldsOf, shown_fieldsOf, Agree, ← hfirst, ← hstatus, ← hrest]
  simp only [Bytes.numbersAt, Status.shown, List.cons_append, List.nil_append, List.cons.injEq,
    and_true, and_assoc]

end ErrorEntry

namespace ErrorLog

variable {bs bs' : Bytes} {entries entries' : List ErrorEntry} {n : Nat}

/-- Every entry takes the same number of lines, so the entries are told apart by counting. -/
theorem entryLines_inj (number : Nat) :
    ((entries.zipIdx number).flatMap fun (e, number) => e.report number) =
      ((entries'.zipIdx number).flatMap fun (e, number) => e.report number) ↔
        entries.map ErrorEntry.shown = entries'.map ErrorEntry.shown := by
  induction entries generalizing entries' number with
  | nil =>
    cases entries' with
    | nil => exact iff_of_true rfl rfl
    | cons e' entries' => exact iff_of_false nofun nofun
  | cons e entries ih =>
    cases entries' with
    | nil => exact iff_of_false nofun nofun
    | cons e' entries' =>
      rw [List.zipIdx_cons, List.zipIdx_cons, List.flatMap_cons, List.flatMap_cons,
        List.map_cons, List.map_cons, List.cons.injEq, ← ih (number + 1),
        ← ErrorEntry.report_inj]
      constructor
      · intro heq
        exact List.append_inj heq
          ((ErrorEntry.length_report number e).trans (ErrorEntry.length_report number e').symm)
      · rintro ⟨hentry, hrest⟩
        rw [hrest]
        exact congrArg (· ++ _) hentry

theorem entryLines_ne_none {e : ErrorEntry} {number : Nat} (rest : Report) :
    ["No error entries found"] ≠ e.report number ++ rest := by
  intro heq
  have hhead := congrArg (fun lines => lines.head?.bind fun line => line.toList.head?) heq
  simp [ErrorEntry.report] at hhead

theorem report_inj {log log' : ErrorLog} :
    log.report = log'.report ↔
      log.entries.map ErrorEntry.shown = log'.entries.map ErrorEntry.shown := by
  obtain ⟨entries⟩ := log
  obtain ⟨entries'⟩ := log'
  unfold report
  rw [List.append_right_inj]
  cases entries with
  | nil =>
    cases entries' with
    | nil => exact iff_of_true rfl rfl
    | cons e' entries' => exact iff_of_false (entryLines_ne_none _) nofun
  | cons e entries =>
    cases entries' with
    | nil => exact iff_of_false (entryLines_ne_none _).symm nofun
    | cons e' entries' => exact entryLines_inj 1

/-- The first `n` slots have been used, and behind them is one that has not or none. -/
structure Uses (bs : Bytes) (n : Nat) : Prop where
  used : ∀ i < n, 64 * (i + 1) ≤ bs.length ∧ bs.numberAt (64 * i) 8 ≠ 0
  ended : 64 * (n + 1) ≤ bs.length → bs.numberAt (64 * n) 8 = 0

theorem Uses.unique {n' : Nat} (h : Uses bs n) (h' : Uses bs n') : n = n' := by
  rcases Nat.lt_trichotomy n n' with hlt | heq | hlt
  · obtain ⟨hwhole, hne⟩ := h'.used n hlt
    exact absurd (h.ended hwhole) hne
  · exact heq
  · obtain ⟨hwhole, hne⟩ := h.used n' hlt
    exact absurd (h'.ended hwhole) hne

/-- The whole slots, used or not. -/
def records (bs : Bytes) : List ErrorEntry :=
  (Bytes.slots (Record.size ErrorEntry) bs).map Record.decode

theorem getElem?_records {i : Nat} (h : i < bs.length / 64) :
    (records bs)[i]? = some (ErrorEntry.fieldsOf (bs.drop (64 * i))) := by
  have hslot : (Record.decode (bs.slice (64 * i) 64) : ErrorEntry) =
      ErrorEntry.fieldsOf (bs.drop (64 * i)) :=
    (Record.decode_take (Nat.le_refl 64) _).trans (Record.decode_eq _)
  rw [← hslot]
  exact Record.getElem?_slots h

theorem errorCount_fieldsOf (i : Nat) (bs : Bytes) :
    (ErrorEntry.fieldsOf (bs.drop (64 * i))).errorCount = bs.numberAt (64 * i) 8 :=
  Bytes.numberAt_drop (64 * i) 0 8 bs

/-- The entries are the records before the first one without an error count. -/
theorem runsTo_entries (bs : Bytes) :
    RunsTo (fun i => bs.numberAt (64 * i) 8 ≠ 0) (bs.length / 64)
      (ofBytes bs).entries.length := by
  have hcount : (records bs).length = bs.length / 64 := Record.length_slots bs
  have hruns := runsTo_takeWhile isUsed (records bs)
  rw [hcount] at hruns
  apply hruns.congr
  intro i hi
  simp [getElem?_records hi, isUsed, errorCount_fieldsOf]

theorem uses_length (bs : Bytes) : Uses bs (ofBytes bs).entries.length := by
  have hruns := runsTo_entries bs
  constructor
  · intro i hi
    have hlt := Nat.lt_of_lt_of_le hi hruns.le
    exact ⟨by omega, hruns.before i hi⟩
  · intro hwhole
    exact Decidable.not_not.mp (hruns.ends (by omega))

theorem getElem?_entries {i : Nat} (h : i < (ofBytes bs).entries.length) :
    (ofBytes bs).entries[i]? = some (ErrorEntry.fieldsOf (bs.drop (64 * i))) := by
  rw [← getElem?_records (Nat.lt_of_lt_of_le h (runsTo_entries bs).le)]
  exact getElem?_takeWhile h

/-- Two pages with the same number of used slots and the same data in each of them. -/
def Agree (bs bs' : Bytes) : Prop :=
  ∃ n, Uses bs n ∧ Uses bs' n ∧ ∀ i < n, ErrorEntry.Agree (64 * i) bs bs'

theorem shown_entries_eq_iff :
    (ofBytes bs).entries.map ErrorEntry.shown = (ofBytes bs').entries.map ErrorEntry.shown ↔
      Agree bs bs' := by
  have hentry : ∀ i, i < (ofBytes bs).entries.length → i < (ofBytes bs').entries.length →
      (((ofBytes bs).entries.map ErrorEntry.shown)[i]? =
        ((ofBytes bs').entries.map ErrorEntry.shown)[i]? ↔ ErrorEntry.Agree (64 * i) bs bs') := by
    intro i hi hi'
    rw [List.getElem?_map, List.getElem?_map, getElem?_entries hi, getElem?_entries hi',
      Option.map_some, Option.map_some, Option.some_inj]
    exact ErrorEntry.shown_fieldsOf_eq_iff ((uses_length bs).used i hi).1
      ((uses_length bs').used i hi').1
  constructor
  · intro heq
    have hlength : (ofBytes bs).entries.length = (ofBytes bs').entries.length := by
      simpa using congrArg List.length heq
    refine ⟨_, uses_length bs, hlength ▸ uses_length bs', ?_⟩
    intro i hi
    rw [← hentry i hi (hlength ▸ hi), heq]
  · rintro ⟨n, huses, huses', hagree⟩
    have hlength := huses.unique (uses_length bs)
    have hlength' := huses'.unique (uses_length bs')
    apply List.ext_getElem?
    intro i
    rcases Nat.lt_or_ge i n with hi | hi
    · exact (hentry i (hlength ▸ hi) (hlength' ▸ hi)).mpr (hagree i hi)
    · rw [List.getElem?_eq_none (by simpa [← hlength] using hi),
        List.getElem?_eq_none (by simpa [← hlength'] using hi)]

end ErrorLog

/-! ## Decoders -/

namespace Decoder

variable {decoder : Decoder} {page page' : PageId} {bs bs' : Bytes} {decoded decoded' : Decoded}

theorem minimumSize_le_of_decode (h : decoder.decode page bs = .ok decoded) :
    decoder.minimumSize ≤ bs.length := by
  rcases Nat.lt_or_ge bs.length decoder.minimumSize with hlt | hle
  · obtain ⟨shortfall, herror⟩ := decode_of_lt hlt page
    cases herror.symm.trans h
  · exact hle

theorem report_of_decode_health (h : health.decode page bs = .ok decoded) :
    decoded.report = (Health.fieldsOf bs).report := by
  have hsize : Record.size Health ≤ bs.length := minimumSize_le_of_decode h
  rw [decode, Record.ofBytes?_of_le hsize] at h
  cases h
  exact congrArg Health.report (Record.decode_eq bs)

theorem report_of_decode_intelTemperature (h : intelTemperature.decode page bs = .ok decoded) :
    decoded.report = (Intel.TemperatureStats.fieldsOf bs).report := by
  have hsize : Record.size Intel.TemperatureStats ≤ bs.length := minimumSize_le_of_decode h
  rw [decode, Record.ofBytes?_of_le hsize] at h
  cases h
  exact congrArg Intel.TemperatureStats.report (Record.decode_eq bs)

theorem report_of_decode_errorLog (h : errorLog.decode page bs = .ok decoded) :
    decoded.report = (ErrorLog.ofBytes bs).report := by
  rw [decode, ErrorLog.ofBytes?_eq] at h
  cases h
  rfl

theorem text_eq_iff_of_decode (h : decoder.decode page bs = .ok decoded)
    (h' : decoder.decode page' bs' = .ok decoded') :
    decoded.report.text = decoded'.report.text ↔ decoded.report = decoded'.report :=
  Report.text_inj (isPrintable_of_decode h) (isPrintable_of_decode h')

/-- The decoder's reports tell of a page what this relation compares, all of it and no more. -/
def ShowsExactly (decoder : Decoder) (agree : Bytes → Bytes → Prop) : Prop :=
  ∀ {page page' : PageId} {bs bs' : Bytes} {decoded decoded' : Decoded},
    decoder.decode page bs = .ok decoded → decoder.decode page' bs' = .ok decoded' →
      (decoded.report.text = decoded'.report.text ↔ agree bs bs')

/-- Pages of the three standard decoders read alike exactly if the data they report agree. -/
theorem showsExactly_standard :
    health.ShowsExactly (fun bs bs' => Bytes.AgreeOn 0 6 bs bs' ∧ Bytes.AgreeOn 32 216 bs bs') ∧
    intelTemperature.ShowsExactly (fun bs bs' =>
      Bytes.AgreeOn 0 2 bs bs' ∧ Bytes.AgreeOn 8 26 bs bs' ∧ Bytes.AgreeOn 32 34 bs bs' ∧
        Bytes.AgreeOn 80 82 bs bs' ∧ Bytes.AgreeOn 88 90 bs bs' ∧ Bytes.AgreeOn 96 104 bs bs') ∧
    errorLog.ShowsExactly ErrorLog.Agree := by
  refine ⟨?health, ?intelTemperature, ?errorLog⟩
  case health =>
    intro page page' bs bs' decoded decoded' h h'
    rw [text_eq_iff_of_decode h h', report_of_decode_health h, report_of_decode_health h',
      Health.report_inj (Health.holdsCounters_fieldsOf bs) (Health.holdsCounters_fieldsOf bs') rfl,
      Health.fieldsOf_eq_iff (minimumSize_le_of_decode h) (minimumSize_le_of_decode h')]
  case intelTemperature =>
    intro page page' bs bs' decoded decoded' h h'
    rw [text_eq_iff_of_decode h h', report_of_decode_intelTemperature h,
      report_of_decode_intelTemperature h', Intel.TemperatureStats.report_inj,
      Intel.TemperatureStats.shown_fieldsOf_eq_iff (minimumSize_le_of_decode h)
        (minimumSize_le_of_decode h')]
  case errorLog =>
    intro page page' bs bs' decoded decoded' h h'
    rw [text_eq_iff_of_decode h h', report_of_decode_errorLog h, report_of_decode_errorLog h',
      ErrorLog.report_inj, ErrorLog.shown_entries_eq_iff]

/-- A sensor that reads zero is told from one that does not, and what differs in a retry delay
and behind an entry's data is not seen. -/
theorem showsExactly_standard_pages :
    let unread : Bytes := List.replicate 512 0
    let read : Bytes := List.replicate 214 0 ++ [0x2c, 0x01] ++ List.replicate 296 0
    let entry : Bytes := List.replicate 12 1 ++ [0x00, 0x00] ++ List.replicate 50 1
    let delayed : Bytes := List.replicate 12 1 ++ [0x00, 0x30] ++ List.replicate 15 1 ++
      List.replicate 105 0
    (∃ decoded decoded', health.decode 0x02 unread = .ok decoded ∧
      health.decode 0x02 read = .ok decoded' ∧ decoded.report.text ≠ decoded'.report.text) ∧
    ∃ decoded decoded', errorLog.decode 0x01 entry = .ok decoded ∧
      errorLog.decode 0x01 delayed = .ok decoded' ∧
      decoded.report.text = decoded'.report.text := by
  intro unread read entry delayed
  obtain ⟨hhealth, -, herrors⟩ := showsExactly_standard
  constructor
  · obtain ⟨decoded, h⟩ := @decode_of_le health unread (by decide +kernel) 0x02
    obtain ⟨decoded', h'⟩ := @decode_of_le health read (by decide +kernel) 0x02
    refine ⟨decoded, decoded', h, h', ?_⟩
    rw [Ne, hhealth h h']
    rintro ⟨-, hagree⟩
    have hsensor : unread[214]? ≠ read[214]? := by decide +kernel
    exact hsensor (hagree 214 (by decide) (by decide))
  · obtain ⟨decoded, h⟩ := @decode_of_le errorLog entry (Nat.zero_le _) 0x01
    obtain ⟨decoded', h'⟩ := @decode_of_le errorLog delayed (Nat.zero_le _) 0x01
    refine ⟨decoded, decoded', h, h', (herrors h h').mpr ⟨1, ⟨?_, ?_⟩, ⟨?_, ?_⟩, ?_⟩⟩
    all_goals decide +kernel

end Decoder

end DriveLog
