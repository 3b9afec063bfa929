import DriveLog.Proofs.PrintableReports
import DriveLog.Text.Numerals

/-! Telling reports apart. A line is printable and so holds no line end: the text of a report
is cut into its lines in one way. On a line with a label the value stands alone behind it,
and a temperature begins with the number of Kelvin that the rest of it is computed from. Numbers
that stand between words are told apart by where their digits end. -/

namespace DriveLog

open Text

namespace Text

variable {s s' t t' : String}

/-- Texts that run on alike are alike, if what stands in front has one length. -/
theorem append_inj_of_length (h : s.length = s'.length) :
    s ++ t = s' ++ t' ↔ s = s' ∧ t = t' := by
  constructor
  · intro heq
    have hlists : s.toList ++ t.toList = s'.toList ++ t'.toList := by
      rw [← String.toList_append, heq, String.toList_append]
    obtain ⟨hs, ht⟩ := List.append_inj hlists
      (by rw [String.length_toList, h, String.length_toList])
    exact ⟨String.toList_inj.mp hs, String.toList_inj.mp ht⟩
  · rintro ⟨rfl, rfl⟩
    rfl

end Text

namespace Report

variable {r r' : Report} {width indent : Nat} {label value value' : String}

/-- Read from its end, a text is made of its lines, each behind the line end that closes it. -/
theorem reverse_toList_text (r : Report) :
    r.text.toList.reverse = (r.reverse.map fun line => '\n' :: line.toList.reverse).flatten := by
  rw [text, String.toList_join, List.flatMap_map, List.flatMap_def, List.reverse_flatten,
    List.map_map, ← List.map_reverse]
  simp [Function.comp_def, written]

theorem isBlock_lines (h : r.IsPrintable) :
    ∀ block ∈ r.reverse.map fun line => '\n' :: line.toList.reverse,
      IsBlock (fun c => c = '\n') block := by
  rw [List.forall_mem_map]
  intro line hline
  refine ⟨'\n', line.toList.reverse, rfl, by decide, ?_⟩
  intro c hc
  have hprintable := h line (List.mem_reverse.mp hline) c (List.mem_reverse.mp hc)
  rw [decide_eq_false_iff_not]
  rintro rfl
  exact absurd hprintable (by decide)

theorem text_inj (h : r.IsPrintable) (h' : r'.IsPrintable) : r.text = r'.text ↔ r = r' := by
  refine ⟨fun heq => ?_, congrArg text⟩
  have hflatten := congrArg (fun s => s.toList.reverse) heq
  simp only [reverse_toList_text] at hflatten
  have hlines := eq_of_flatten_eq (isBlock_lines h) (isBlock_lines h') hflatten
  have hinj : ∀ line line' : String,
      '\n' :: line.toList.reverse = '\n' :: line'.toList.reverse → line = line' := by
    intro line line' hblock
    exact String.toList_inj.mp (List.reverse_inj.mp (List.cons.inj hblock).2)
  exact List.reverse_inj.mp ((List.map_inj_right hinj).mp hlines)

@[simp] theorem column_inj : column width label value = column width label value' ↔
    value = value' := String.append_right_inj _

@[simp] theorem field_inj : field indent label value = field indent label value' ↔
    value = value' := by
  unfold field
  rw [column_inj, String.append_right_inj]

end Report

/-- A temperature is known by its Kelvin, which stand first. -/
@[simp] theorem Temperature.text_inj {t t' : Temperature} : t.text = t'.text ↔ t = t' := by
  refine ⟨fun h => ?_, congrArg text⟩
  unfold text at h
  simp only [String.append_assoc] at h
  obtain ⟨hkelvin, _⟩ := (decimal_append_inj (by simp) (by simp)).mp h
  exact congrArg mk hkelvin

/-- A shortfall is known by its three numbers. -/
@[simp] theorem Shortfall.message_inj {s s' : Shortfall} : s.message = s'.message ↔ s = s' := by
  refine ⟨fun h => ?_, congrArg message⟩
  unfold message at h
  simp only [String.append_assoc, String.append_right_inj] at h
  obtain ⟨hoffset, hrest⟩ := (decimal_append_inj (by simp) (by simp)).mp h
  rw [String.append_right_inj] at hrest
  obtain ⟨hneeded, hrest⟩ := (decimal_append_inj (by simp) (by simp)).mp hrest
  rw [String.append_right_inj, String.append_left_inj, decimal_inj] at hrest
  cases s
  cases s'
  simpa only [mk.injEq] using ⟨hoffset, hneeded, hrest⟩

end DriveLog
