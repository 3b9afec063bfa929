import DriveLog.Proofs.ParameterReports
import DriveLog.Proofs.RecordLayouts

/-! Reports of one record read back. A payload that is long enough is decoded, and any other is
shown as too short, and neither is taken for the other. The records have no reserved bytes and
their reports leave no field out, so the text of such a subpage tells all of their bytes. -/

namespace DriveLog.Hgst

open Text

variable {α : Type} [Record α] {size : Nat} {shown : α → Report} {bs bs' : Bytes}

/-! ## Payloads of one record -/

/-- The same record stands at the head of both payloads, or both end before it at one place. -/
def SameRecord (size : Nat) (bs bs' : Bytes) : Prop :=
  size ≤ bs.length ∧ size ≤ bs'.length ∧ bs.take size = bs'.take size ∨
    bs.length < size ∧ bs'.length < size ∧ bs.length = bs'.length

theorem sameRecord_of_le (h : size ≤ bs.length) (h' : size ≤ bs'.length) :
    SameRecord size bs bs' ↔ bs.take size = bs'.take size := by
  unfold SameRecord
  rw [and_iff_right h, and_iff_right h']
  exact or_iff_left fun hlt => absurd h (Nat.not_le.mpr hlt.1)

theorem sameRecord_of_lt (h : bs.length < size) (h' : bs'.length < size) :
    SameRecord size bs bs' ↔ bs.length = bs'.length := by
  unfold SameRecord
  rw [and_iff_right h, and_iff_right h']
  exact or_iff_right fun hle => absurd h (Nat.not_lt.mpr hle.1)

theorem not_sameRecord (h : bs.length < size) (h' : size ≤ bs'.length) :
    ¬SameRecord size bs bs' := by
  rintro (⟨hle, _⟩ | ⟨_, hlt, _⟩)
  · exact absurd h (Nat.not_lt.mpr hle)
  · exact absurd h' (Nat.not_le.mpr hlt)

theorem SameRecord.symm (h : SameRecord size bs bs') : SameRecord size bs' bs := by
  rcases h with ⟨hle, hle', htake⟩ | ⟨hlt, hlt', hlength⟩
  · exact .inl ⟨hle', hle, htake.symm⟩
  · exact .inr ⟨hlt', hlt, hlength.symm⟩

namespace Subpage

theorem record_of_le (h : Record.size α ≤ bs.length) :
    (record bs : Except Anomaly α) = .ok (Record.decode bs) := by
  rw [record, Record.ofBytes?_of_le h]
  rfl

theorem record_of_lt (h : bs.length < Record.size α) :
    (record bs : Except Anomaly α) = .error (.truncated ⟨0, Record.size α, bs.length⟩) := by
  rw [record, Record.ofBytes?_of_lt h]
  rfl

/-- What stands below the heading of a subpage whose payload is one record. -/
def recordLines (shown : α → Report) (bs : Bytes) : Report := report.orAnomaly shown (record bs)

theorem recordLines_of_le (h : Record.size α ≤ bs.length) :
    recordLines shown bs = shown (Record.decode bs) := by
  rw [recordLines, record_of_le h]
  rfl

theorem recordLines_of_lt (h : bs.length < Record.size α) :
    recordLines shown bs = ["  " ++ Shortfall.message ⟨0, Record.size α, bs.length⟩] := by
  rw [recordLines, record_of_lt h]
  rfl

/-- A report that leaves nothing of a record out and is never that of a payload without one. -/
structure ShowsRecord (shown : α → Report) : Prop where
  inj : ∀ bs bs' : Bytes, shown (Record.decode bs) = shown (Record.decode bs') →
    (Record.decode bs : α) = Record.decode bs'
  ne_shortfall : ∀ (bs : Bytes) (s : Shortfall), shown (Record.decode bs) ≠ ["  " ++ s.message]

theorem ShowsRecord.recordLines_inj (h : ShowsRecord shown)
    (hdense : (Record.layout α).IsDense) :
    recordLines shown bs = recordLines shown bs' ↔ SameRecord (Record.size α) bs bs' := by
  rcases Nat.lt_or_ge bs.length (Record.size α) with hlt | hle
  · rcases Nat.lt_or_ge bs'.length (Record.size α) with hlt' | hle'
    · -- Of the three numbers in the line only the number of bytes that are left can differ.
      rw [sameRecord_of_lt hlt hlt', recordLines_of_lt hlt, recordLines_of_lt hlt',
        List.singleton_inj, String.append_right_inj, Shortfall.message_inj, Shortfall.mk.injEq,
        and_iff_right rfl, and_iff_right rfl]
    · rw [recordLines_of_lt hlt, recordLines_of_le hle']
      exact iff_of_false (h.ne_shortfall bs' _).symm (not_sameRecord hlt hle')
  · rcases Nat.lt_or_ge bs'.length (Record.size α) with hlt' | hle'
    · rw [recordLines_of_le hle, recordLines_of_lt hlt']
      exact iff_of_false (h.ne_shortfall bs _) fun hsame => not_sameRecord hlt' hle hsame.symm
    · rw [sameRecord_of_le hle hle', recordLines_of_le hle, recordLines_of_le hle',
        ← Record.decode_eq_iff hdense hle hle']
      exact ⟨h.inj bs bs', congrArg shown⟩

/-- A line with a label is told from that of a shortfall by its first letter. -/
theorem field_ne_shortfall {label value : String} {c : Char} (h : label.toList.head? = some c)
    (hc : c ≠ 't') (s : Shortfall) : Report.field 2 label value ≠ "  " ++ s.message := by
  have hshortfall : ("  " ++ s.message).toList[2]? = some 't' := by
    unfold Shortfall.message
    simp only [String.toList_append]
    rfl
  intro heq
  rw [← heq, getElem?_field h, Option.some_inj] at hshortfall
  exact hc hshortfall

end Subpage

/-! ## Clocks -/

/-- The minutes that a clock shows: sixty for each hour before the colon, and those behind it. -/
def minutesOf (s : String) : Nat :=
  60 * numeralValue 10 (s.toList.takeWhile Char.isDigit) +
    numeralValue 10 (((s.toList.dropWhile Char.isDigit).drop 1).take 2)

theorem toList_clock (minutes : Nat) : (clock minutes).toList =
    (decimal (minutes / 60)).toList ++
      ':' :: ((padLeft 2 '0' (decimal (minutes % 60))).toList ++ ":00".toList) := by
  have hcolon : ":".toList = [':'] := rfl
  simp only [clock, String.toList_append, List.append_assoc, hcolon, List.cons_append,
    List.nil_append]

/-- The hours end at the first colon, however many digits they have. -/
theorem minutesOf_clock (minutes : Nat) : minutesOf (clock minutes) = minutes := by
  have hdigit : ∀ c ∈ (decimal (minutes / 60)).toList, c.isDigit = true :=
    fun c hc => isDigit_of_mem_decimal hc
  have htake : ∀ rest : List Char, (':' :: rest).takeWhile Char.isDigit = [] := fun _ => rfl
  have hdrop : ∀ rest : List Char, (':' :: rest).dropWhile Char.isDigit = ':' :: rest :=
    fun _ => rfl
  have hminutes : minutes % 60 < 100 := Nat.lt_trans (Nat.mod_lt minutes (by decide)) (by decide)
  have hwidth : (padLeft 2 '0' (decimal (minutes % 60))).toList.length = 2 := by
    rw [String.length_toList]
    exact length_padLeft_toDigits (by decide) (by decide) '0' hminutes
  rw [minutesOf, toList_clock, List.takeWhile_append_of_pos hdigit, htake, List.append_nil,
    List.dropWhile_append_of_pos hdigit, hdrop, List.drop_succ_cons, List.drop_zero,
    List.take_left' hwidth, toList_padLeft, numeralValue_zeros, toList_decimal, toList_decimal,
    numeralValue_toDigits (by decide) (by decide), numeralValue_toDigits (by decide) (by decide),
    Nat.div_add_mod]

example : clock 6005 = "100:05:00" := by decide

theorem clock_inj {m n : Nat} : clock m = clock n ↔ m = n :=
  (Function.LeftInverse.injective minutesOf_clock).eq_iff

/-! ## Records -/

namespace TemperatureHistory

variable {h h' : TemperatureHistory}

theorem isDense_layout : (Record.layout TemperatureHistory).IsDense := nofun

theorem report_inj : h.report = h'.report ↔ h = h' := by
  have hdegrees : ∀ m n : Nat, decimal m ++ " C" = decimal n ++ " C" ↔ m = n := by
    intro m n
    rw [String.append_left_inj, decimal_inj]
  cases h
  cases h'
  simp only [report, report.degrees, List.cons.injEq, and_true, Report.field_inj, hdegrees,
    clock_inj, mk.injEq]

theorem showsRecord : Subpage.ShowsRecord report where
  inj _ _ := report_inj.mp
  ne_shortfall _ s heq := by
    obtain ⟨hline, _⟩ := List.cons.inj heq
    exact Subpage.field_ne_shortfall (c := 'C') rfl (by decide) s hline

end TemperatureHistory

namespace PerformanceCounters

/-- Every counter has a name of its own, so no line is missing. -/
theorem rows_inj {names : List String} {counters counters' : List Nat}
    (h : counters.length = names.length) (h' : counters'.length = names.length) :
    ((names.zip counters).map fun (name, n) => Report.field 2 name (decimal n)) =
      ((names.zip counters').map fun (name, n) => Report.field 2 name (decimal n)) ↔
        counters = counters' := by
  induction names generalizing counters counters' with
  | nil =>
    rw [List.eq_nil_of_length_eq_zero h, List.eq_nil_of_length_eq_zero h']
    exact iff_of_true rfl rfl
  | cons name names ih =>
    obtain ⟨n, counters, rfl⟩ := List.exists_cons_of_length_eq_add_one h
    obtain ⟨n', counters', rfl⟩ := List.exists_cons_of_length_eq_add_one h'
    rw [List.zip_cons_cons, List.zip_cons_cons, List.map_cons, List.map_cons, List.cons.injEq,
      List.cons.injEq, Report.field_inj, decimal_inj, ih (Nat.succ.inj h) (Nat.succ.inj h')]

theorem isDense_layout : (Record.layout PerformanceCounters).IsDense := nofun

theorem decode_eq (bs : Bytes) : Record.decode bs = fieldsOf bs := rfl

theorem showsRecord : Subpage.ShowsRecord report where
  inj bs bs' heq := by
    rw [decode_eq, decode_eq] at heq ⊢
    exact congrArg mk ((rows_inj rfl rfl).mp heq)
  ne_shortfall _ s heq := by
    obtain ⟨hline, _⟩ := List.cons.inj heq
    exact Subpage.field_ne_shortfall (c := 'H') rfl (by decide) s hline

end PerformanceCounters

namespace FirmwareLoad

def fieldsOf (bs : Bytes) : FirmwareLoad where
  downloads := bs.numberAt 0 4

theorem isDense_layout : (Record.layout FirmwareLoad).IsDense := nofun

theorem showsRecord : Subpage.ShowsRecord report where
  inj bs bs' heq := by
    obtain ⟨hline, _⟩ := List.cons.inj heq
    rw [Report.field_inj, decimal_inj] at hline
    exact congrArg mk hline
  ne_shortfall _ s heq := by
    obtain ⟨hline, _⟩ := List.cons.inj heq
    exact Subpage.field_ne_shortfall (c := 'F') rfl (by decide) s hline

end FirmwareLoad

/-! ## Subpages -/

namespace Subpage

/-- A subtype whose payload is one record: what a payload is decoded to, and what the text of the
subpage tells of it. -/
structure TellsRecord {α : Type} (subtype size : Nat)
    (subpage : Nat → Except Anomaly α → Subpage) (fieldsOf : Bytes → α)
    (sameKind : Nat → Nat → Prop) : Prop where
  whole : ∀ (reserved : Nat) (bs : Bytes), size ≤ bs.length →
    ofPayload subtype reserved bs = subpage reserved (.ok (fieldsOf bs))
  short : ∀ (reserved : Nat) (bs : Bytes), bs.length < size →
    ofPayload subtype reserved bs = subpage reserved (.error (.truncated ⟨0, size, bs.length⟩))
  text_eq_iff : ∀ (reserved reserved' : Nat) (bs bs' : Bytes),
    (ofPayload subtype reserved bs).report.text = (ofPayload subtype reserved' bs').report.text ↔
      sameKind reserved reserved' ∧ SameRecord size bs bs'

theorem ShowsRecord.tellsRecord {subtype : Nat} {subpage : Nat → Except Anomaly α → Subpage}
    {fieldsOf : Bytes → α} {heading : Nat → String} {sameKind : Nat → Nat → Prop}
    (h : ShowsRecord shown) (hdense : (Record.layout α).IsDense)
    (hfields : ∀ bs, (Record.decode bs : α) = fieldsOf bs)
    (hpayload : ∀ reserved bs, ofPayload subtype reserved bs = subpage reserved (record bs))
    (hreport : ∀ reserved read,
      (subpage reserved read).report = [heading reserved] ++ report.orAnomaly shown read)
    (hheading : ∀ reserved reserved',
      heading reserved = heading reserved' ↔ sameKind reserved reserved') :
    TellsRecord subtype (Record.size α) subpage fieldsOf sameKind where
  whole reserved bs hle := by rw [hpayload, record_of_le hle, hfields]
  short reserved bs hlt := by rw [hpayload, record_of_lt hlt]
  text_eq_iff reserved reserved' bs bs' := by
    rw [Report.text_inj (isPrintable_ofPayload _ _ _) (isPrintable_ofPayload _ _ _), hpayload,
      hpayload, hreport, hreport, List.singleton_append, List.singleton_append, List.cons.injEq,
      hheading, ← h.recordLines_inj hdense, recordLines, recordLines]

theorem performanceHeading_inj (kind kind' : Nat) :
    "SSD Performance Subpage Type " ++ decimal kind ++ ":" =
      "SSD Performance Subpage Type " ++ decimal kind' ++ ":" ↔ kind = kind' := by
  rw [String.append_left_inj, String.append_right_inj, decimal_inj]

/-- The subpages of one fixed record tell it exactly: all of its bytes if they are there, and how
many of them are there if not. A clock tells its minutes. -/
theorem tellsRecord_fixed :
    TellsRecord 0x32 16 (fun _ => temperatureHistory) TemperatureHistory.fieldsOf
      (fun _ _ => True) ∧
    TellsRecord 0x37 128 performance PerformanceCounters.fieldsOf (fun kind kind' => kind = kind') ∧
    TellsRecord 0x38 4 (fun _ => firmwareLoad) FirmwareLoad.fieldsOf (fun _ _ => True) ∧
    Function.LeftInverse minutesOf clock := by
  refine ⟨?history, ?performance, ?firmwareLoad, minutesOf_clock⟩
  case history =>
    exact TemperatureHistory.showsRecord.tellsRecord TemperatureHistory.isDense_layout
      Record.decode_eq (fun _ _ => rfl) (fun _ _ => rfl) fun _ _ => iff_of_true rfl trivial
  case performance =>
    exact PerformanceCounters.showsRecord.tellsRecord PerformanceCounters.isDense_layout
      PerformanceCounters.decode_eq (fun _ _ => rfl) (fun _ _ => rfl) performanceHeading_inj
  case firmwareLoad =>
    exact FirmwareLoad.showsRecord.tellsRecord FirmwareLoad.isDense_layout
      Record.decode_eq (fun _ _ => rfl) (fun _ _ => rfl) fun _ _ => iff_of_true rfl trivial

end Subpage

end DriveLog.Hgst
