import DriveLog.Proofs.DistinctReports
import DriveLog.Proofs.SubpageTiling

/-! Splitting the report of an extra info page. The subpages' own reports stand in it one
behind the other without a count or an end mark, and some lines of their bodies are not
indented. Still the first characters of a line tell whether a subpage begins there, and of
which variant, so a report is split in one way only and shows which subpages it is made of. -/

namespace DriveLog.Hgst

open Text

namespace Subpage

/-- What a subpage has been decoded as. -/
inductive Variant where
  | errorCounters (operation : MediaOperation)
  | selfTest
  | mediaScan
  | eraseCounts
  | temperatureHistory
  | performance
  | firmwareLoad
  | unhandled
deriving DecidableEq, Repr

def variant : Subpage → Variant
  | errorCounters operation _ => .errorCounters operation
  | selfTest _ => .selfTest
  | mediaScan _ => .mediaScan
  | eraseCounts _ => .eraseCounts
  | temperatureHistory _ => .temperatureHistory
  | performance _ _ => .performance
  | firmwareLoad _ => .firmwareLoad
  | unhandled _ => .unhandled

/-- What the first line of a subpage begins with. -/
def Variant.title : Variant → String
  | errorCounters operation => operation.heading
  | selfTest => "Self Test Subpage:"
  | mediaScan => "Background Media Scan Subpage:"
  | eraseCounts => "Erase Counts Subpage:"
  | temperatureHistory => "Temperature History:"
  | performance => "SSD Performance Subpage Type "
  | firmwareLoad => "Firmware Load Subpage:"
  | unhandled => "No handler for page type "

end Subpage

open Subpage (Variant)

/-! ## First characters -/

/-- As many characters of a line as it takes to know what begins there. -/
def lead (line : String) : List Char := line.toList.take 7

/-- What the line of an overrun begins with. -/
def overrunTitle : String := "Ooops! Off the end of the list"

def variants : List Variant :=
  [.errorCounters .write, .errorCounters .read, .errorCounters .verify, .errorCounters .erase,
    .selfTest, .mediaScan, .eraseCounts, .temperatureHistory, .performance, .firmwareLoad,
    .unhandled]

/-- Whether a line begins a part of the list: a subpage or the overrun. -/
def isTitleLine (line : String) : Bool :=
  (overrunTitle :: variants.map Variant.title).any fun title => lead title = lead line

variable {s t : String} {variant variant' : Variant}

theorem mem_variants (variant : Variant) : variant ∈ variants := by
  cases variant with
  | errorCounters operation => cases operation <;> decide
  | _ => decide

theorem lead_append (h : 7 ≤ s.length) (t : String) : lead (s ++ t) = lead s := by
  rw [lead, String.toList_append, List.take_append_of_le_length (by rwa [String.length_toList]),
    lead]

theorem isTitleLine_append (h : 7 ≤ s.length) (t : String) :
    isTitleLine (s ++ t) = isTitleLine s := by
  simp only [isTitleLine, lead_append h]

/-- No two variants begin alike. -/
theorem variant_eq_of_lead (h : lead variant.title = lead variant'.title) :
    variant = variant' := by
  have hall : ∀ v ∈ variants, ∀ v' ∈ variants, lead v.title = lead v'.title → v = v' := by
    decide
  exact hall variant (mem_variants variant) variant' (mem_variants variant') h

theorem lead_overrunTitle_ne (variant : Variant) : lead overrunTitle ≠ lead variant.title := by
  have hall : ∀ v ∈ variants, lead overrunTitle ≠ lead v.title := by decide
  exact hall variant (mem_variants variant)

/-- A line with a blank in front begins nothing. -/
theorem isTitleLine_of_blank (h : s.toList.head? = some ' ') : isTitleLine s = false := by
  have hall : ∀ title ∈ overrunTitle :: variants.map Variant.title,
      (lead title).head? ≠ some ' ' := by decide
  have hlead : (lead s).head? = some ' ' := by
    rw [lead, List.head?_take, if_neg (by decide), h]
  rw [isTitleLine, List.any_eq_false]
  intro title htitle heq
  rw [decide_eq_true_iff] at heq
  exact hall title htitle (heq ▸ hlead)

/-! ## Lines of a body -/

theorem isTitleLine_field (indent : Nat) (label value : String) :
    isTitleLine (Report.field (indent + 1) label value) = false := by
  apply isTitleLine_of_blank
  rw [Report.field, Report.column, String.toList_append, toList_padRight, String.toList_append,
    toList_spaces, List.replicate_succ]
  rfl

/-- Of all anomalies it is the overrun alone that stands on a line of its own in the list. -/
theorem isTitleLine_message {anomaly : Anomaly}
    (h : ∀ offset, anomaly ≠ .subpageOverrun offset) : isTitleLine anomaly.message = false := by
  unfold Anomaly.message
  cases anomaly with
  | subpageOverrun offset => exact absurd rfl (h offset)
  | truncated shortfall =>
    show isTitleLine shortfall.message = false
    unfold Shortfall.message
    simp only [String.append_assoc]
    rw [isTitleLine_append (by decide)]
    decide
  | _ =>
    simp only [String.append_assoc]
    rw [isTitleLine_append (by decide)]
    decide

theorem fault_selfTest_ne_overrun {bs : Bytes} {anomaly : Anomaly}
    (h : (SelfTestLog.ofBytes bs).fault = some anomaly) :
    ∀ offset, anomaly ≠ .subpageOverrun offset := by
  rw [SelfTestLog.ofBytes_eq] at h
  obtain ⟨slot, _, hslot⟩ := Option.bind_eq_some_iff.mp h
  unfold SelfTestLog.faultOf at hslot
  split at hslot
  · cases hslot
  · cases hslot
    exact nofun

theorem fault_mediaScan_ne_overrun {bs : Bytes} {anomaly : Anomaly}
    (h : (MediaScan.ofBytes bs).fault = some anomaly) :
    ∀ offset, anomaly ≠ .subpageOverrun offset := by
  unfold MediaScan.ofBytes at h
  split at h
  · cases h
    exact nofun
  · split at h
    · cases h
      exact nofun
    · split at h
      · cases h
        exact nofun
      · rw [MediaScan.fault_ofSlots] at h
        obtain ⟨slot, _, rfl⟩ := Option.map_eq_some_iff.mp h
        exact nofun

/-! ## Subpages -/

/-- The report begins with the title of the variant, and nothing else in it begins a part of
the list. -/
def Heads (variant : Variant) (report : Report) : Prop :=
  ∃ head body, report = head :: body ∧ lead head = lead variant.title ∧
    ∀ line ∈ body, isTitleLine line = false

theorem Heads.isBlock {report : Report} (h : Heads variant report) :
    IsBlock isTitleLine report := by
  obtain ⟨head, body, rfl, hhead, hbody⟩ := h
  refine ⟨head, body, rfl, ?_, hbody⟩
  rw [isTitleLine, List.any_eq_true]
  exact ⟨variant.title, List.mem_cons_of_mem _ (List.mem_map_of_mem (mem_variants variant)),
    decide_eq_true hhead.symm⟩

/-- A report has one variant at most. -/
theorem Heads.variant_eq {report : Report} (h : Heads variant report)
    (h' : Heads variant' report) : variant = variant' := by
  obtain ⟨head, body, rfl, hhead, _⟩ := h
  obtain ⟨_, _, heq, hhead', _⟩ := h'
  obtain ⟨rfl, _⟩ := List.cons.inj heq
  exact variant_eq_of_lead (hhead.symm.trans hhead')

/-- Lines that begin no part of the list. -/
def Inner (r : Report) : Prop := ∀ line ∈ r, isTitleLine line = false

theorem inner_fault {fault : Option Anomaly}
    (h : ∀ anomaly, fault = some anomaly → ∀ offset, anomaly ≠ .subpageOverrun offset) :
    Inner (fault.map Anomaly.message).toList := by
  cases fault with
  | none =>
    intro line hline
    cases hline
  | some anomaly =>
    intro line hline
    rw [List.mem_singleton.mp hline]
    exact isTitleLine_message (h anomaly rfl)

theorem inner_parameters (list : ParameterList) : Inner list.report := by
  unfold ParameterList.report Inner
  rw [List.forall_mem_append]
  refine ⟨?_, ?_⟩
  · rw [List.forall_mem_map]
    intro p _
    exact isTitleLine_field 1 _ _
  · split
    · intro line hline
      cases hline
    · intro line hline
      rw [List.mem_singleton.mp hline]
      exact isTitleLine_of_blank (by simp)

theorem inner_selfTestResult (result : SelfTestResult) : Inner result.report := by
  simp [Inner, SelfTestResult.report, SelfTestResult.report.item, isTitleLine_field]

theorem inner_header (slots : Nat) (header : ScanHeader) :
    Inner (MediaScan.headerReport slots header) := by
  simp [Inner, MediaScan.headerReport, isTitleLine_field]

theorem inner_retirement (retirement : Retirement) : Inner retirement.report := by
  cases retirement with
  | valid number nand => simp [Inner, Retirement.report, isTitleLine_field]
  | corrupt code =>
    intro line hline
    rw [List.mem_singleton.mp hline, String.append_assoc, isTitleLine_append (by decide)]
    decide

theorem inner_orAnomaly {α : Type} {shown : α → Report} (h : ∀ a, Inner (shown a))
    (read : Except Anomaly α) : Inner (Subpage.report.orAnomaly shown read) := by
  cases read with
  | ok a => exact h a
  | error anomaly =>
    intro line hline
    rw [List.mem_singleton.mp hline]
    exact isTitleLine_of_blank (by simp)

theorem inner_history (history : TemperatureHistory) : Inner history.report := by
  simp [Inner, TemperatureHistory.report, TemperatureHistory.report.degrees, isTitleLine_field]

theorem inner_counters (counters : PerformanceCounters) : Inner counters.report := by
  unfold Inner PerformanceCounters.report
  rw [List.forall_mem_map]
  intro row _
  exact isTitleLine_field 1 _ _

theorem inner_firmwareLoad (load : FirmwareLoad) : Inner load.report := by
  simp [Inner, FirmwareLoad.report, isTitleLine_field]

namespace Subpage

theorem heads_parameters (operation : MediaOperation) (list : ParameterList) :
    Heads (.errorCounters operation) (report (.errorCounters operation list)) :=
  ⟨operation.heading, list.report, rfl, rfl, inner_parameters list⟩

theorem heads_selfTest (bs : Bytes) : Heads .selfTest (report (.selfTest (.ofBytes bs))) := by
  refine ⟨"Self Test Subpage:", _, rfl, rfl, List.forall_mem_append.mpr ⟨?_, ?_⟩⟩
  · intro line hline
    obtain ⟨result, _, hmem⟩ := List.mem_flatMap.mp hline
    exact inner_selfTestResult result line hmem
  · exact inner_fault fun _ => fault_selfTest_ne_overrun

theorem heads_mediaScan (bs : Bytes) : Heads .mediaScan (report (.mediaScan (.ofBytes bs))) := by
  refine ⟨"Background Media Scan Subpage:", _, rfl, rfl,
    List.forall_mem_append.mpr ⟨List.forall_mem_append.mpr ⟨?header, ?retirements⟩, ?fault⟩⟩
  case header =>
    cases (MediaScan.ofBytes bs).header with
    | none =>
      intro line hline
      cases hline
    | some header => exact inner_header _ header
  case retirements =>
    intro line hline
    obtain ⟨retirement, _, hmem⟩ := List.mem_flatMap.mp hline
    exact inner_retirement retirement line hmem
  case fault => exact inner_fault fun _ => fault_mediaScan_ne_overrun

/-- Whatever a payload is decoded to, its report begins with the title of the variant, and
with that alone. -/
theorem heads_ofPayload (subtype reserved : Nat) (payload : Bytes) :
    Heads (ofPayload subtype reserved payload).variant
      (ofPayload subtype reserved payload).report := by
  unfold ofPayload
  split
  case h_1 => exact heads_parameters .write _
  case h_2 => exact heads_parameters .read _
  case h_3 => exact heads_parameters .verify _
  case h_4 => exact heads_selfTest payload
  case h_5 => exact heads_mediaScan payload
  case h_6 => exact heads_parameters .erase _
  case h_7 =>
    refine ⟨_, [], rfl, ?_, nofun⟩
    rw [String.append_assoc, lead_append (by decide)]
    show lead "Erase Counts Subpage: not decoded (subtype 0x31, " = lead "Erase Counts Subpage:"
    decide
  case h_8 => exact ⟨"Temperature History:", _, rfl, rfl, inner_orAnomaly inner_history _⟩
  case h_9 =>
    refine ⟨_, _, rfl, ?_, inner_orAnomaly inner_counters _⟩
    rw [String.append_assoc, lead_append (by decide)]
    rfl
  case h_10 => exact ⟨"Firmware Load Subpage:", _, rfl, rfl, inner_orAnomaly inner_firmwareLoad _⟩
  case h_11 =>
    refine ⟨_, [], rfl, ?_, nofun⟩
    rw [lead_append (by decide)]
    rfl

end Subpage

/-! ## Pages -/

namespace Overrun

theorem message_eq (overrun : Overrun) : overrun.anomaly.message =
    "Ooops! Off the end of the list (subpage at offset " ++ (decimal overrun.offset ++ ")") :=
  String.append_assoc

theorem lead_message (overrun : Overrun) :
    lead overrun.anomaly.message = lead overrunTitle := by
  rw [message_eq, lead_append (by decide)]
  decide

theorem message_inj {overrun overrun' : Overrun} :
    overrun.anomaly.message = overrun'.anomaly.message ↔ overrun.anomaly = overrun'.anomaly := by
  refine ⟨fun h => ?_, congrArg Anomaly.message⟩
  rw [message_eq, message_eq, String.append_right_inj] at h
  obtain ⟨hoffset, _⟩ := (decimal_append_inj (by simp) (by simp)).mp h
  exact congrArg Anomaly.subpageOverrun hoffset

/-- What an overrun, if there is one, adds to the list of the report. -/
def blocks (overrun : Option Overrun) : List Report :=
  (overrun.map fun overrun => [overrun.anomaly.message]).toList

theorem blocks_inj {overrun overrun' : Option Overrun} :
    blocks overrun = blocks overrun' ↔ overrun.map anomaly = overrun'.map anomaly := by
  cases overrun with
  | none => cases overrun' <;> simp [blocks]
  | some overrun =>
    cases overrun' with
    | none => simp [blocks]
    | some overrun' => simp [blocks, message_inj]

end Overrun

/-- Whether a block tells of an overrun. -/
def opensOverrun (block : Report) : Bool := block.head?.map lead = some (lead overrunTitle)

theorem Heads.opensOverrun_eq {report : Report} (h : Heads variant report) :
    opensOverrun report = false := by
  obtain ⟨head, body, rfl, hhead, _⟩ := h
  rw [opensOverrun, decide_eq_false_iff_not, List.head?_cons, Option.map_some, hhead,
    Option.some_inj]
  exact (lead_overrunTitle_ne variant).symm

theorem Overrun.opensOverrun_of_mem_blocks {overrun : Option Overrun} {block : Report}
    (h : block ∈ blocks overrun) : opensOverrun block = true := by
  obtain ⟨overrun, _, rfl⟩ := Option.map_eq_some_iff.mp (Option.mem_toList.mp h)
  rw [opensOverrun, decide_eq_true_iff, List.head?_cons, Option.map_some, lead_message]

namespace InfoPage

variable {bs bs' : Bytes} {page page' : InfoPage}

/-- What stands in the list of the report, in blocks: the subpages and the overrun. -/
def blocks (page : InfoPage) : List Report :=
  page.subpages.map (fun entry => entry.body.report) ++ Overrun.blocks page.overrun

theorem report_eq (page : InfoPage) :
    page.report = "HGST Extra Info Log" :: String.ofList (List.replicate 19 '=') ::
      ("Subpages: " ++ decimal page.pages ++ ", list length: " ++ decimal page.length) ::
      page.blocks.flatten := by
  unfold report blocks
  rw [List.flatten_append, ← List.flatMap_def]
  cases page.overrun with
  | none => rfl
  | some overrun => rfl

theorem heads_body (h : ofBytes? bs = .ok page) :
    ∀ entry ∈ page.subpages, Heads entry.body.variant entry.body.report := by
  intro entry hentry
  obtain ⟨subtype, reserved, payload, hbody⟩ := exists_payload_of_mem h hentry
  rw [hbody]
  exact Subpage.heads_ofPayload subtype reserved payload

theorem isBlock_blocks (h : ofBytes? bs = .ok page) :
    ∀ block ∈ page.blocks, IsBlock isTitleLine block := by
  unfold blocks
  rw [List.forall_mem_append, List.forall_mem_map]
  refine ⟨fun entry hentry => (heads_body h entry hentry).isBlock, ?_⟩
  intro block hblock
  obtain ⟨overrun, _, rfl⟩ := Option.map_eq_some_iff.mp (Option.mem_toList.mp hblock)
  refine ⟨overrun.anomaly.message, [], rfl, ?_, nofun⟩
  rw [Overrun.message_eq, isTitleLine_append (by decide)]
  decide

/-- The overrun is told from the subpages by the line it begins with. -/
theorem blocks_inj (h : ofBytes? bs = .ok page) (h' : ofBytes? bs' = .ok page') :
    page.blocks = page'.blocks ↔
      page.subpages.map (fun entry => entry.body.report) =
        page'.subpages.map (fun entry => entry.body.report) ∧
      page.overrun.map Overrun.anomaly = page'.overrun.map Overrun.anomaly := by
  have hfront : ∀ {bs : Bytes} {page : InfoPage}, ofBytes? bs = .ok page →
      ∀ block ∈ page.subpages.map (fun entry => entry.body.report), opensOverrun block = false := by
    intro bs page h
    rw [List.forall_mem_map]
    exact fun entry hentry => (heads_body h entry hentry).opensOverrun_eq
  have hback : ∀ overrun, ∀ block ∈ (Overrun.blocks overrun).head?, opensOverrun block = true :=
    fun overrun block hblock =>
      Overrun.opensOverrun_of_mem_blocks (List.mem_of_head? hblock)
  rw [← Overrun.blocks_inj]
  constructor
  · intro heq
    exact append_inj_of_mark (hfront h) (hfront h') (hback _) (hback _) heq
  · rintro ⟨hsubpages, hoverrun⟩
    rw [blocks, hsubpages, hoverrun, blocks]

/-- The third line gives both numbers of the header, and the lines behind it the blocks. -/
theorem report_inj (h : ofBytes? bs = .ok page) (h' : ofBytes? bs' = .ok page') :
    page.report = page'.report ↔
      page.pages = page'.pages ∧ page.length = page'.length ∧ page.blocks = page'.blocks := by
  have hflatten : page.blocks.flatten = page'.blocks.flatten ↔ page.blocks = page'.blocks :=
    ⟨eq_of_flatten_eq (isBlock_blocks h) (isBlock_blocks h'), congrArg List.flatten⟩
  have hline : "Subpages: " ++ decimal page.pages ++ ", list length: " ++ decimal page.length =
      "Subpages: " ++ decimal page'.pages ++ ", list length: " ++ decimal page'.length ↔
        page.pages = page'.pages ∧ page.length = page'.length := by
    simp only [String.append_assoc, String.append_right_inj]
    rw [decimal_append_inj (by simp) (by simp), String.append_right_inj, decimal_inj]
  rw [report_eq, report_eq]
  simp only [List.cons.injEq, true_and, hline, hflatten, and_assoc]

/-- Two pages that show the same: the same header, overrun and number of subpages, and at
every place in the list two subpages of one variant that read alike. -/
structure ShownAlike (page page' : InfoPage) : Prop where
  pages_eq : page.pages = page'.pages
  length_eq : page.length = page'.length
  overrun_eq : page.overrun.map Overrun.anomaly = page'.overrun.map Overrun.anomaly
  count_eq : page.subpages.length = page'.subpages.length
  subpages_eq : ∀ (i : Nat) (entry entry' : SubpageEntry), page.subpages[i]? = some entry →
    page'.subpages[i]? = some entry' → entry.body.variant = entry'.body.variant ∧
      entry.body.report.text = entry'.body.report.text

/-- The report of a page can be split into its parts in one way only: two pages read alike
exactly if each part of the one reads like the same part of the other. -/
theorem text_report_eq_iff (h : ofBytes? bs = .ok page) (h' : ofBytes? bs' = .ok page') :
    page.report.text = page'.report.text ↔ page.ShownAlike page' := by
  rw [Report.text_inj (isPrintable_report h) (isPrintable_report h'), report_inj h h',
    blocks_inj h h']
  constructor
  · rintro ⟨hpages, hlength, hreports, hoverrun⟩
    refine ⟨hpages, hlength, hoverrun, by simpa using congrArg List.length hreports, ?_⟩
    intro i entry entry' hentry hentry'
    have hreport := congrArg (fun reports => reports[i]?) hreports
    simp only [List.getElem?_map, hentry, hentry', Option.map_some, Option.some_inj] at hreport
    have hheads := heads_body h entry (List.mem_of_getElem? hentry)
    rw [hreport] at hheads
    exact ⟨hheads.variant_eq (heads_body h' entry' (List.mem_of_getElem? hentry')),
      congrArg Report.text hreport⟩
  · intro halike
    refine ⟨halike.pages_eq, halike.length_eq, ?_, halike.overrun_eq⟩
    apply List.ext_getElem (by simpa using halike.count_eq)
    intro i hi hi'
    rw [List.length_map] at hi hi'
    obtain ⟨_, htext⟩ := halike.subpages_eq i _ _ (List.getElem?_eq_getElem hi)
      (List.getElem?_eq_getElem hi')
    rw [List.getElem_map, List.getElem_map]
    exact (Report.text_inj (isPrintable_body h _ (List.getElem_mem hi))
      (isPrintable_body h' _ (List.getElem_mem hi'))).mp htext

/-- A media scan that is cut short and a subtype without a handler show lines that are not
indented; the bytes and bits that differ around them are not shown. -/
theorem text_report_eq_iff_unshown :
    let stored : List StoredSubpage :=
      [⟨0x15, 0, [0], by decide⟩, ⟨0x3f, 0, [7], by decide⟩]
    let stored' : List StoredSubpage :=
      [⟨0x55, 1, [0], by decide⟩, ⟨0x7f, 2, [8], by decide⟩]
    ∃ page page', ofBytes? (bytes 2 0 10 (stored.flatMap StoredSubpage.bytes)) = .ok page ∧
      ofBytes? (bytes 2 9 10 (stored'.flatMap StoredSubpage.bytes ++ [1])) = .ok page' ∧
      page.report.text = page'.report.text ∧ page.ShownAlike page' := by
  intro stored stored'
  have hpage := ofBytes?_bytes 2 0 stored [] (by decide : 10 < 0x10000) (by decide)
  have hpage' := ofBytes?_bytes 2 9 stored' [1] (by decide : 10 < 0x10000) (by decide)
  rw [List.append_nil] at hpage
  refine ⟨_, _, hpage, hpage', ?_⟩
  have htext := text_report_eq_iff hpage hpage'
  exact ⟨rfl, htext.mp rfl⟩

end InfoPage

end DriveLog.Hgst
