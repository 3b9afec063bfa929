import DriveLog.Proofs.DistinctLabels
import DriveLog.Proofs.StoredParameters

/-! Parameter reports read back. Each parameter has a line of its own, from which its code and
its value are told, whether the table names the code or not. The line of a fault stands behind
them and begins like no other. So the report of an error counter subpage tells every counter of
the list in its order, as often as it is there, and where and why the list broke off. -/

namespace DriveLog.Hgst

open Text

/-- Two ways to look at the elements that tell the same of each pair tell the same of the lists. -/
theorem map_eq_map_iff {α β γ : Type} {f : α → β} {g : α → γ} {as as' : List α}
    (h : ∀ a ∈ as, ∀ a' ∈ as', f a = f a' ↔ g a = g a') :
    as.map f = as'.map f ↔ as.map g = as'.map g := by
  induction as generalizing as' with
  | nil => cases as' <;> simp
  | cons a as ih =>
    cases as' with
    | nil => simp
    | cons a' as' =>
      have hrest := ih fun b hb b' hb' =>
        h b (List.mem_cons_of_mem a hb) b' (List.mem_cons_of_mem a' hb')
      rw [List.map_cons, List.map_cons, List.map_cons, List.map_cons, List.cons.injEq,
        List.cons.injEq, h a List.mem_cons_self a' List.mem_cons_self, hrest]

variable {operation : MediaOperation} {table : LabelTable} {bs bs' : Bytes}

/-! ## Lines of parameters -/

namespace Parameter

variable {p p' : Parameter}

/-- A parameter as it is read off a list: its code fills two bytes, and the table labels it. -/
structure LabelledBy (table : LabelTable) (p : Parameter) : Prop where
  code_lt : p.code < 0x10000
  label_eq : p.label = table.label p.code

theorem line_inj (hdistinct : table.Distinct) (h : p.LabelledBy table)
    (h' : p'.LabelledBy table) : p.line = p'.line ↔ p.code = p'.code ∧ p.value = p'.value := by
  rw [line, line, h.label_eq, h'.label_eq,
    hdistinct.field_inj (Nat.le_refl 2) h.code_lt h'.code_lt, decimal_inj]

end Parameter

theorem ParameterList.labelledBy_of_mem {p : Parameter}
    (h : p ∈ (ofBytes table bs).parameters) : p.LabelledBy table := by
  obtain ⟨stored, _, hparameters, _⟩ := (ofBytes_describes table bs).stored
  rw [hparameters] at h
  obtain ⟨s, _, rfl⟩ := List.mem_map.mp h
  exact ⟨s.code_lt, rfl⟩

/-! ## Lines of faults -/

/-- The line of a fault is known by its first letter. -/
def isFaultLine (line : String) : Bool := line.toList[2]? = some 'P'

/-- The line that tells why a list broke off. -/
def faultLine (fault : Shortfall) : String := "  Parameter list corrupt: " ++ fault.message

theorem toList_faultLine (fault : Shortfall) :
    (faultLine fault).toList = "  Parameter list corrupt: ".toList ++ fault.message.toList :=
  String.toList_append

theorem isFaultLine_faultLine (fault : Shortfall) : isFaultLine (faultLine fault) = true := by
  have hletter : "  Parameter list corrupt: ".toList[2]? = some 'P' := by decide
  have hline : (faultLine fault).toList[2]? = some 'P' := by
    rw [toList_faultLine, List.getElem?_append_left (List.getElem?_eq_some_iff.mp hletter).1,
      hletter]
  exact decide_eq_true hline

theorem faultLine_inj {fault fault' : Shortfall} :
    faultLine fault = faultLine fault' ↔ fault = fault' :=
  (String.append_right_inj _).trans Shortfall.message_inj

theorem toList_map_faultLine_inj {fault fault' : Option Shortfall} :
    (fault.map faultLine).toList = (fault'.map faultLine).toList ↔ fault = fault' := by
  cases fault <;> cases fault' <;> simp [faultLine_inj]

theorem getElem?_field {label value : String} {c : Char} (h : label.toList.head? = some c) :
    (Report.field 2 label value).toList[2]? = some c := by
  obtain ⟨rest, hlabel⟩ := List.head?_eq_some_iff.mp h
  simp [Report.field, Report.column, hlabel, List.replicate_succ]

namespace MediaOperation

theorem distinct_labels (operation : MediaOperation) : operation.labels.Distinct := by
  cases operation <;> decide

/-- No label begins like the line of a fault. -/
theorem exists_head?_label (operation : MediaOperation) (code : Nat) :
    ∃ c, (operation.labels.label code).text.toList.head? = some c ∧ c ≠ 'P' := by
  have hnames : ∀ entry ∈ operation.labels, entry.2.toList.head? ∉ [none, some 'P'] := by
    cases operation <;> decide
  rcases operation.labels.label_cases code with ⟨name, hmem, htext⟩ | htext
  · have hname := hnames _ hmem
    rw [htext]
    cases hhead : name.toList.head? with
    | none => simp [hhead] at hname
    | some c =>
      refine ⟨c, rfl, ?_⟩
      intro hc
      simp [hhead, hc] at hname
  · refine ⟨'A', ?_, by decide⟩
    rw [htext, String.toList_append]
    rfl

theorem isFaultLine_line (operation : MediaOperation) (code value : Nat) :
    isFaultLine (Parameter.line ⟨code, operation.labels.label code, value⟩) = false := by
  obtain ⟨c, hhead, hc⟩ := operation.exists_head?_label code
  rw [isFaultLine, Parameter.line, getElem?_field hhead, decide_eq_false_iff_not, Option.some_inj]
  exact hc

end MediaOperation

/-! ## Reports -/

namespace ParameterList

/-- What is counted, in the order of the list. -/
def counts (list : ParameterList) : List (Nat × Nat) :=
  list.parameters.map fun p => (p.code, p.value)

theorem report_eq (list : ParameterList) :
    list.report = list.parameters.map Parameter.line ++ (list.fault.map faultLine).toList := by
  unfold report
  cases list.fault <;> rfl

theorem lines_inj (hdistinct : table.Distinct) :
    (ofBytes table bs).parameters.map Parameter.line =
      (ofBytes table bs').parameters.map Parameter.line ↔
        (ofBytes table bs).counts = (ofBytes table bs').counts := by
  apply map_eq_map_iff
  intro p hp p' hp'
  rw [Parameter.line_inj hdistinct (labelledBy_of_mem hp) (labelledBy_of_mem hp'), Prod.mk.injEq]

/-- The lines of the parameters end where the line of a fault begins. -/
theorem report_inj (operation : MediaOperation) :
    (ofBytes operation.labels bs).report = (ofBytes operation.labels bs').report ↔
      (ofBytes operation.labels bs).counts = (ofBytes operation.labels bs').counts ∧
        (ofBytes operation.labels bs).fault = (ofBytes operation.labels bs').fault := by
  have hlines : ∀ (bs : Bytes),
      ∀ line ∈ (ofBytes operation.labels bs).parameters.map Parameter.line,
        isFaultLine line = false := by
    intro bs line hline
    obtain ⟨⟨code, label, value⟩, hp, rfl⟩ := List.mem_map.mp hline
    obtain rfl : label = operation.labels.label code := (labelledBy_of_mem hp).label_eq
    exact operation.isFaultLine_line code value
  have hfault : ∀ fault : Option Shortfall, ∀ line ∈ (fault.map faultLine).toList.head?,
      isFaultLine line = true := by
    intro fault line hline
    cases fault with
    | none => cases hline
    | some fault =>
      cases hline
      exact isFaultLine_faultLine fault
  rw [report_eq, report_eq, ← lines_inj operation.distinct_labels]
  constructor
  · intro heq
    obtain ⟨hparameters, hback⟩ :=
      append_inj_of_mark (hlines bs) (hlines bs') (hfault _) (hfault _) heq
    exact ⟨hparameters, toList_map_faultLine_inj.mp hback⟩
  · intro h
    rw [h.1, h.2]

end ParameterList

/-! ## Subpages -/

namespace MediaOperation

/-- The subtype of the subpage in which the errors of the operation are counted. -/
def subtype : MediaOperation → Nat
  | write => 0x02
  | read => 0x03
  | verify => 0x05
  | erase => 0x30

theorem ofPayload_subtype (operation : MediaOperation) (reserved : Nat) (bs : Bytes) :
    Subpage.ofPayload operation.subtype reserved bs =
      .errorCounters operation (.ofBytes operation.labels bs) := by
  cases operation <;> rfl

/-- What the subpage of an operation says of its list, and how it is told. -/
structure TellsCounts (operation : MediaOperation) : Prop where
  report_eq : ∀ (reserved : Nat) (bs : Bytes),
    (Subpage.ofPayload operation.subtype reserved bs).report = operation.heading ::
      (ParameterList.ofBytes operation.labels bs).parameters.map Parameter.line ++
        ((ParameterList.ofBytes operation.labels bs).fault.map faultLine).toList
  label_inj : ∀ code code' : Nat,
    (operation.labels.label code).text = (operation.labels.label code').text ↔ code = code'
  line_ne_fault : ∀ (code value : Nat) (fault : Shortfall),
    Parameter.line ⟨code, operation.labels.label code, value⟩ ≠ faultLine fault
  text_eq_iff : ∀ (reserved reserved' : Nat) (bs bs' : Bytes),
    (Subpage.ofPayload operation.subtype reserved bs).report.text =
      (Subpage.ofPayload operation.subtype reserved' bs').report.text ↔
        (ParameterList.ofBytes operation.labels bs).counts =
          (ParameterList.ofBytes operation.labels bs').counts ∧
        (ParameterList.ofBytes operation.labels bs).fault =
          (ParameterList.ofBytes operation.labels bs').fault

/-- The report of an error counter subpage loses no counter and mistakes none for another. -/
theorem tellsCounts (operation : MediaOperation) : operation.TellsCounts where
  report_eq reserved bs := by
    rw [ofPayload_subtype, Subpage.report, ParameterList.report_eq]
    rfl
  label_inj _ _ := operation.distinct_labels.text_inj
  line_ne_fault code value fault heq := by
    have hline := operation.isFaultLine_line code value
    rw [heq, isFaultLine_faultLine] at hline
    cases hline
  text_eq_iff reserved reserved' bs bs' := by
    rw [Report.text_inj (Subpage.isPrintable_ofPayload _ _ _)
      (Subpage.isPrintable_ofPayload _ _ _), ofPayload_subtype, ofPayload_subtype, Subpage.report,
      Subpage.report, List.append_right_inj, ParameterList.report_inj]

end MediaOperation

end DriveLog.Hgst
