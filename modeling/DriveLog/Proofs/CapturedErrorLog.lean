import DriveLog.Proofs.LimitedSinks
import DriveLog.Proofs.Truncation
import DriveLog.Retrieval.Capture

/-! Error logs out of captures. How many entries a capture stands for, by its length or as
given, is how many slots of the file are shown, with zeros behind a short one. The entries
shown are always the first ones: the length loses none up to the 256th, and a larger number
only shows more of them. -/

namespace DriveLog

theorem Decoder.errorLogSize_div (e : UInt8) :
    errorLogSize e / Record.size ErrorEntry = e.toNat + 1 :=
  Nat.mul_div_cancel_left _ (by decide)

namespace ErrorLog

theorem length_entries_le (bs : Bytes) :
    (ofBytes bs).entries.length ≤ bs.length / Record.size ErrorEntry := by
  have hruns := runsTo_takeWhile isUsed (Record.slots ErrorEntry bs)
  rw [Record.length_slots] at hruns
  exact hruns.le

/-- The entries behind the number asked for are all that a smaller size loses. -/
theorem entries_resize {e e' : UInt8} (h : e ≤ e') (bs : Bytes) :
    (ofBytes (bs.resize (Decoder.errorLogSize e))).entries =
      (ofBytes (bs.resize (Decoder.errorLogSize e'))).entries.take (e.toNat + 1) := by
  have hsize : Decoder.errorLogSize e ≤ Decoder.errorLogSize e' :=
    Nat.mul_le_mul_left _ (Nat.succ_le_succ (UInt8.le_iff_toNat_le.mp h))
  rw [← Bytes.take_resize hsize, entries_take, Decoder.errorLogSize_div]

end ErrorLog

namespace Capture

variable {files : Files} {path : String} {bs : Bytes}

theorem toNat_lastEntryOfLength (length : Nat) :
    (lastEntryOfLength length).toNat = min 255 (max 1 (length / 64) - 1) := by
  have hlt : min 255 (max 1 (length / 64) - 1) < 2 ^ 8 := by omega
  rw [lastEntryOfLength, UInt8.toNat_ofNat_of_lt' hlt]

/-- There is always an entry to be the last one. -/
theorem lastEntryOfLength_succ (length : Nat) :
    1 ≤ max 1 (length / 64) ∧
      (lastEntryOfLength length).toNat + 1 = min 256 (max 1 (length / 64)) := by
  rw [toNat_lastEntryOfLength]
  omega

/-- In words of 64 bits the subtraction does not wrap around. -/
theorem lastEntryOfLength_word (length : UInt64) :
    1 ≤ max 1 (length / 64) ∧
      (lastEntryOfLength length.toNat).toNat = min 255 (max 1 (length / 64) - 1).toNat := by
  have hone : (1 : UInt64) ≤ max 1 (length / 64) := by
    rw [UInt64.le_iff_toNat_le, UInt64.toNat_max]
    exact Nat.le_max_left _ _
  refine ⟨hone, ?_⟩
  rw [toNat_lastEntryOfLength, UInt64.toNat_sub_of_le _ _ hone, UInt64.toNat_max, UInt64.toNat_div]
  rfl

/-- A file of at least one slot is asked for no more than it has, and for every slot up to
the 256th. -/
theorem entries_of_length (h : 64 ≤ bs.length) :
    (ErrorLog.ofBytes (bs.resize (Decoder.errorLogSize (lastEntryOfLength bs.length)))).entries =
      (ErrorLog.ofBytes bs).entries.take 256 := by
  have hsucc : (lastEntryOfLength bs.length).toNat + 1 = min 256 (bs.length / 64) := by
    rw [(lastEntryOfLength_succ bs.length).2, Nat.max_eq_right (by omega)]
  have hsize : Decoder.errorLogSize (lastEntryOfLength bs.length) ≤ bs.length := by
    show 64 * ((lastEntryOfLength bs.length).toNat + 1) ≤ bs.length
    omega
  have hlength : (ErrorLog.ofBytes bs).entries.length ≤ bs.length / 64 :=
    ErrorLog.length_entries_le bs
  rw [Bytes.resize_of_le hsize, ErrorLog.entries_take, Decoder.errorLogSize_div, hsucc,
    ← List.take_take, List.take_of_length_le hlength]

/-- The error log of a capture has these entries: they are those of the bytes it answers
with, and a retrieval shows their report. -/
structure Shows (capture : Capture) (files : Files) (entries : List ErrorEntry) : Prop where
  answered : ∃ bs, (capture.answer files
      (Request.query { page := 0x01 } capture.lastErrorEntry)).result = .ok bs ∧
    ErrorLog.ofBytes? bs = .ok ⟨entries⟩
  reported : ∀ sink : Sink, sink.Shown (ErrorLog.report ⟨entries⟩).text
    ((capture.controller files).retrieve { page := 0x01 } sink)

theorem ofPath?_of_file (h : files path = .ok (.file bs)) (namespaceSmart : Bool)
    (lastErrorEntry : Option UInt8) :
    ofPath? files path namespaceSmart lastErrorEntry =
      .ok ⟨path, namespaceSmart, lastErrorEntry.getD (lastEntryOfLength bs.length)⟩ := by
  rw [ofPath?, h]
  rfl

theorem result_answer_of_file {capture : Capture} (h : files capture.path = .ok (.file bs))
    (query : Query) : (capture.answer files query).result = .ok (bs.resize query.size) := by
  rw [answer, h]
  rfl

theorem shows_of_answer {capture : Capture}
    (h : (capture.answer files
      (Request.query { page := 0x01 } capture.lastErrorEntry)).result = .ok bs) :
    capture.Shows files (ErrorLog.ofBytes bs).entries := by
  refine ⟨⟨bs, h, ErrorLog.ofBytes?_eq bs⟩, ?_⟩
  have hcheck : Request.check { page := 0x01 } (capture.controller files).namespaceSmart =
      .ok () := rfl
  have hdecode : Decoder.errorLog.decode 0x01 bs =
      .ok { report := (ErrorLog.ofBytes bs).report } := by
    rw [Decoder.decode, ErrorLog.ofBytes?_eq]
    rfl
  exact Controller.shown_retrieve hcheck h hdecode

theorem shows_of_file {capture : Capture} (h : files capture.path = .ok (.file bs)) :
    capture.Shows files
      (ErrorLog.ofBytes (bs.resize (Decoder.errorLogSize capture.lastErrorEntry))).entries :=
  shows_of_answer (result_answer_of_file h _)

/-- What the captures of one file show of its error log. -/
structure KeepsEntries (files : Files) (path : String) (bs : Bytes) : Prop where
  derived : 64 ≤ bs.length → ∀ namespaceSmart, ∃ capture log,
    ofPath? files path namespaceSmart none = .ok capture ∧
    ErrorLog.ofBytes? bs = .ok log ∧ capture.Shows files (log.entries.take 256)
  given : ∀ namespaceSmart e e', e ≤ e' → ∃ capture capture' entries entries',
    ofPath? files path namespaceSmart (some e) = .ok capture ∧
    ofPath? files path namespaceSmart (some e') = .ok capture' ∧
    capture.Shows files entries ∧ capture'.Shows files entries' ∧
    entries = entries'.take (e.toNat + 1)

/-- A capture neither cuts the error log of its file short nor extends it, and the number of
entries that a length stands for is exact in words of 64 bits as well. -/
theorem keepsEntries_of_file (h : files path = .ok (.file bs)) :
    ((∀ length, 1 ≤ max 1 (length / 64) ∧
        (lastEntryOfLength length).toNat + 1 = min 256 (max 1 (length / 64))) ∧
      ∀ length : UInt64, 1 ≤ max 1 (length / 64) ∧
        (lastEntryOfLength length.toNat).toNat = min 255 (max 1 (length / 64) - 1).toNat) ∧
      KeepsEntries files path bs := by
  refine ⟨⟨lastEntryOfLength_succ, lastEntryOfLength_word⟩, ?_, ?_⟩
  · intro hlength namespaceSmart
    refine ⟨_, _, ofPath?_of_file h namespaceSmart none, ErrorLog.ofBytes?_eq bs, ?_⟩
    rw [← entries_of_length hlength]
    exact shows_of_file h
  · intro namespaceSmart e e' hle
    refine ⟨_, _, _, _, ofPath?_of_file h namespaceSmart (some e),
      ofPath?_of_file h namespaceSmart (some e'), shows_of_file h, shows_of_file h, ?_⟩
    exact ErrorLog.entries_resize hle bs

/-- The second slot of this file is not whole: by its length one entry is shown, and of two
entries asked for the second one is that slot filled with zeros. -/
theorem keepsEntries_of_file_partial :
    let bs : Bytes := List.replicate 70 1
    let files : Files := fun _ => .ok (.file bs)
    files "error.log" = .ok (.file bs) ∧ KeepsEntries files "error.log" bs ∧
      (∃ capture log, ofPath? files "error.log" false none = .ok capture ∧
        ErrorLog.ofBytes? bs = .ok log ∧ log.entries.length = 1 ∧
        capture.Shows files (log.entries.take 256)) ∧
      (ErrorLog.ofBytes (bs.resize (Decoder.errorLogSize 1))).entries.length = 2 := by
  intro bs files
  have hfile : files "error.log" = .ok (.file bs) := rfl
  have hlength : 64 ≤ bs.length := by
    rw [List.length_replicate]
    decide
  have hkeeps := (keepsEntries_of_file hfile).2
  obtain ⟨capture, log, hcapture, hlog, hshows⟩ := hkeeps.derived hlength false
  have hone : log.entries.length = 1 := by
    cases (ErrorLog.ofBytes?_eq bs).symm.trans hlog
    decide +kernel
  refine ⟨hfile, hkeeps, ⟨capture, log, hcapture, hlog, hone, hshows⟩, ?_⟩
  decide +kernel

end Capture

end DriveLog
