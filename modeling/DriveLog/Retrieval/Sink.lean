import DriveLog.Report

/-! Where a report goes. A sink takes the text piece by piece and may have room for only
so much of it: the piece that does not fit is written as far as it goes and refused.
Report text is ASCII, so a character is a byte. -/

namespace DriveLog

structure Sink where
  /-- How many more bytes are accepted, if that is limited. -/
  room : Option Nat := none
  refusesFlush : Bool := false
  written : String := ""
  /-- How often a flush was asked for. -/
  flushes : Nat := 0
deriving DecidableEq, Repr

/-- A sink's refusal. -/
inductive Refusal where
  | full
  | flush
deriving DecidableEq, Repr

def Refusal.message : Refusal → String
  | full => "failed to write whole buffer"
  | flush => "flush refused"

namespace Sink

def write (sink : Sink) (piece : String) : Except Refusal Unit × Sink :=
  match sink.room with
  | none => (.ok (), { sink with written := sink.written ++ piece })
  | some n =>
    if piece.length ≤ n then
      (.ok (), { sink with room := some (n - piece.length), written := sink.written ++ piece })
    else
      (.error .full,
        { sink with
          room := some 0
          written := sink.written ++ String.ofList (piece.toList.take n) })

/-- Writes line after line until one is refused. -/
def writeReport (sink : Sink) : Report → Except Refusal Unit × Sink
  | [] => (.ok (), sink)
  | line :: rest =>
    match sink.write (Report.written line) with
    | (.ok (), sink) => sink.writeReport rest
    | refused => refused

def flush (sink : Sink) : Except Refusal Unit × Sink :=
  let asked := { sink with flushes := sink.flushes + 1 }
  if sink.refusesFlush then (.error .flush, asked) else (.ok (), asked)

theorem flush_of_accepted {sink : Sink} (h : sink.refusesFlush = false) :
    sink.flush = (.ok (), { sink with flushes := sink.flushes + 1 }) := by
  simp [flush, h]

theorem flush_of_refused {sink : Sink} (h : sink.refusesFlush = true) :
    sink.flush = (.error .flush, { sink with flushes := sink.flushes + 1 }) := by
  simp [flush, h]

/-- Writes piece after piece until one is refused. -/
def writePieces (sink : Sink) : List String → Except Refusal Unit × Sink
  | [] => (.ok (), sink)
  | piece :: rest =>
    match sink.write piece with
    | (.ok (), sink) => sink.writePieces rest
    | refused => refused

variable {sink after : Sink} {refusal : Refusal} {s t : String} {n : Nat}

theorem write_of_unlimited (h : sink.room = none) (s : String) :
    sink.write s = (.ok (), { sink with written := sink.written ++ s }) := by
  simp only [write, h]

theorem write_of_le (h : sink.room = some n) (hle : s.length ≤ n) :
    sink.write s =
      (.ok (), { sink with room := some (n - s.length), written := sink.written ++ s }) := by
  simp only [write, h, if_pos hle]

theorem write_of_lt (h : sink.room = some n) (hlt : n < s.length) :
    sink.write s =
      (.error .full, { sink with
        room := some 0
        written := sink.written ++ String.ofList (s.toList.take n) }) := by
  simp only [write, h, if_neg (Nat.not_le.mpr hlt)]

/-- A text is written as a whole if there is room for it, and else as far as it goes. -/
theorem write_cases (sink : Sink) (s : String) :
    ((∀ n, sink.room = some n → s.length ≤ n) ∧
      ∃ room, sink.write s = (.ok (), { sink with room, written := sink.written ++ s })) ∨
    ∃ n, sink.room = some n ∧ n < s.length ∧
      sink.write s = (.error .full, { sink with
        room := some 0
        written := sink.written ++ String.ofList (s.toList.take n) }) := by
  cases hroom : sink.room with
  | none =>
    refine .inl ⟨?_, sink.room, write_of_unlimited hroom s⟩
    intro n hn
    cases hn
  | some n =>
    rcases Nat.lt_or_ge n s.length with hlt | hle
    · exact .inr ⟨n, rfl, hlt, write_of_lt hroom hlt⟩
    · refine .inl ⟨?_, _, write_of_le hroom hle⟩
      intro m hm
      cases hm
      exact hle

theorem written_of_write (h : sink.write s = (.ok (), after)) :
    after.written = sink.written ++ s := by
  rcases sink.write_cases s with ⟨_, room, hwrite⟩ | ⟨n, _, _, hwrite⟩
  · cases hwrite.symm.trans h
    rfl
  · cases hwrite.symm.trans h

@[simp] theorem write_empty (sink : Sink) : sink.write "" = (.ok (), sink) := by
  rcases sink with ⟨_ | n, refusesFlush, written, flushes⟩ <;> simp [write]

/-- Two pieces written one after the other are written as both of them at once. -/
theorem write_append_of_ok (h : sink.write s = (.ok (), after)) (t : String) :
    sink.write (s ++ t) = after.write t := by
  cases hroom : sink.room with
  | none =>
    rw [write_of_unlimited hroom] at h
    cases h
    have hafter : { sink with written := sink.written ++ s }.room = none := hroom
    rw [write_of_unlimited hroom, write_of_unlimited hafter, String.append_assoc]
  | some n =>
    rcases Nat.lt_or_ge n s.length with hlt | hle
    · rw [write_of_lt hroom hlt] at h
      cases h
    · rw [write_of_le hroom hle] at h
      cases h
      rcases Nat.lt_or_ge (n - s.length) t.length with hlt | hfit
      · have hlong : n < (s ++ t).length := by
          rw [String.length_append]
          omega
        have hwhole : s.toList.take n = s.toList :=
          List.take_of_length_le (by rwa [String.length_toList])
        rw [write_of_lt hroom hlong, write_of_lt rfl hlt, String.toList_append,
          List.take_append, hwhole, String.length_toList, String.ofList_append,
          String.ofList_toList, String.append_assoc]
      · have hboth : (s ++ t).length ≤ n := by
          rw [String.length_append]
          omega
        rw [write_of_le hroom hboth, write_of_le rfl hfit, String.length_append,
          Nat.sub_add_eq, String.append_assoc]

/-- What comes behind a refused piece makes no difference. -/
theorem write_append_of_error (h : sink.write s = (.error refusal, after)) (t : String) :
    sink.write (s ++ t) = (.error refusal, after) := by
  cases hroom : sink.room with
  | none =>
    rw [write_of_unlimited hroom] at h
    cases h
  | some n =>
    rcases Nat.lt_or_ge n s.length with hlt | hle
    · have hlong : n < (s ++ t).length := by
        rw [String.length_append]
        omega
      have hshort : n - s.toList.length = 0 := by
        rw [String.length_toList]
        omega
      rw [← h, write_of_lt hroom hlt, write_of_lt hroom hlong, String.toList_append,
        List.take_append, hshort, List.take_zero, List.append_nil]
    · rw [write_of_le hroom hle] at h
      cases h

/-- A text is written alike into whichever pieces it is cut. -/
theorem writePieces_eq_write (sink : Sink) (pieces : List String) :
    sink.writePieces pieces = sink.write (String.join pieces) := by
  induction pieces generalizing sink with
  | nil => exact (write_empty sink).symm
  | cons piece rest ih =>
    rw [writePieces, String.join_cons]
    rcases hwrite : sink.write piece with ⟨_ | _, after⟩
    · exact (write_append_of_error hwrite _).symm
    · rw [write_append_of_ok hwrite]
      exact ih after

theorem writeReport_eq_writePieces (sink : Sink) (report : Report) :
    sink.writeReport report = sink.writePieces (report.map Report.written) := by
  induction report generalizing sink with
  | nil => rfl
  | cons line rest ih =>
    rw [writeReport, List.map_cons, writePieces]
    rcases sink.write (Report.written line) with ⟨_ | _, after⟩
    · rfl
    · exact ih after

theorem writeReport_eq_write (sink : Sink) (report : Report) :
    sink.writeReport report = sink.write report.text := by
  rw [writeReport_eq_writePieces, writePieces_eq_write, Report.text]

/-- A sink with unlimited room takes a whole report. -/
theorem writeReport_of_room {sink : Sink} (h : sink.room = none) (report : Report) :
    sink.writeReport report =
      (.ok (), { sink with written := sink.written ++ report.text }) := by
  rw [writeReport_eq_write, write_of_unlimited h]

end Sink

end DriveLog
