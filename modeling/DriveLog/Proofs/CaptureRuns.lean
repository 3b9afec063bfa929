import DriveLog.CommandLine.Program
import DriveLog.Proofs.RetrievalProtocol
import DriveLog.Proofs.StoredCaptures
import DriveLog.Proofs.Verbosity

/-! Runs of the program on a capture that is there. The arguments and the file decide between
two ends: a namespace that the page has no place for ends the run without output, and any
other run shows the report of the file's bytes, cut or filled to the size of the page. How
much is logged, and for most pages the number of error entries, make no difference to that. -/

namespace DriveLog.CommandLine

/-! ## Runs -/

/-- Both runs end alike and have the same output. -/
def Run.ShowsSame (r r' : Run) : Prop := r.exitCode = r'.exitCode ∧ r.stdout = r'.stdout

namespace Settings

variable {settings settings' : Settings} {files : Files} {bs : Bytes}

/-- A namespace is named, and the page is not kept by namespace. -/
def Misdirected (settings : Settings) : Prop :=
  settings.namespaceId.isSome ∧ (settings.page ≠ 0x02 ∨ settings.namespaceSmart = false)

/-- How many bytes are asked for of a file of this length. The error log is asked for by its
number of entries: as it is given, or as many as fit in the file, one at least. -/
def askedSize (settings : Settings) (length : Nat) : Nat :=
  if settings.page = 0x01 then
    64 * ((settings.lastErrorEntry.map UInt8.toNat).getD (min 255 (max 1 (length / 64) - 1)) + 1)
  else (Decoder.choose settings.page settings.asHex).size

/-- What the decoder for the page makes of its bytes. -/
def decode (settings : Settings) (bs : Bytes) : Except Shortfall Decoded :=
  (Decoder.choose settings.page settings.asHex).decoder.decode settings.page bs

/-- How a run on a file ends: refused without output, or with the report of the file's bytes,
as many as are asked for, with zeros behind the last one if there are fewer. -/
structure EndsWith (settings : Settings) (bs : Bytes) (run : Run) : Prop where
  refused_iff : run.exitCode = 1 ∧ run.stdout = "" ↔ settings.Misdirected
  shown : ¬ settings.Misdirected → run.exitCode = 0 ∧
    ∃ content decoded, Bytes.IsResized (settings.askedSize bs.length) bs content ∧
      settings.decode content = .ok decoded ∧ run.stdout = decoded.report.text

/-- The capture that stands for the file. -/
def captureOf (settings : Settings) (bs : Bytes) : Capture :=
  ⟨settings.capture, settings.namespaceSmart,
    settings.lastErrorEntry.getD (Capture.lastEntryOfLength bs.length)⟩

theorem size_request (settings : Settings) (bs : Bytes) :
    settings.request.size (settings.captureOf bs).lastErrorEntry =
      settings.askedSize bs.length := by
  have hlast : (settings.captureOf bs).lastErrorEntry.toNat =
      (settings.lastErrorEntry.map UInt8.toNat).getD (min 255 (max 1 (bs.length / 64) - 1)) := by
    unfold captureOf
    cases settings.lastErrorEntry with
    | none => exact Capture.toNat_lastEntryOfLength bs.length
    | some entry => rfl
  rw [askedSize, ← hlast]
  rfl

theorem decode_ok (settings : Settings) (bs : Bytes) :
    ∃ decoded, settings.decode (bs.resize (settings.askedSize bs.length)) = .ok decoded := by
  apply Decoder.decode_of_le
  rw [Bytes.length_resize, ← size_request]
  exact settings.request.minimumSize_le_size _

theorem check_of_misdirected (h : settings.Misdirected) :
    ∃ failure, settings.request.check settings.namespaceSmart = .error failure := by
  obtain ⟨hsome, hwrong⟩ := h
  obtain ⟨namespaceId, hnamespace⟩ := Option.isSome_iff_exists.mp hsome
  by_cases hpage : settings.page = 0x02
  · rw [hwrong.resolve_left (not_not_intro hpage)]
    exact ⟨_, Request.check_of_unsupported hnamespace hpage⟩
  · exact ⟨_, Request.check_of_scoped hnamespace hpage _⟩

theorem check_of_not_misdirected (h : ¬ settings.Misdirected) :
    settings.request.check settings.namespaceSmart = .ok () := by
  apply Request.check_of_valid
  by_cases hsome : settings.namespaceId.isSome
  · right
    by_cases hpage : settings.page = 0x02
    · refine ⟨hpage, ?_⟩
      rw [← Bool.not_eq_false]
      exact fun hsmart => h ⟨hsome, .inr hsmart⟩
    · exact absurd ⟨hsome, .inl hpage⟩ h
  · left
    exact Option.not_isSome_iff_eq_none.mp hsome

/-- What the run retrieves from the capture. -/
def outcome (settings : Settings) (files : Files) (bs : Bytes) : Outcome :=
  ((settings.captureOf bs).controller files).retrieve settings.request {}

theorem run_of_outcome (h : files settings.capture = .ok (.file bs)) :
    (settings.run files).stdout = (settings.outcome files bs).sink.written ∧
      ((settings.outcome files bs).result = .ok () → (settings.run files).exitCode = 0) ∧
      ∀ failure, (settings.outcome files bs).result = .error failure →
        (settings.run files).exitCode = 1 := by
  have hcapture : Capture.ofPath? files settings.capture settings.namespaceSmart
      settings.lastErrorEntry = .ok (settings.captureOf bs) :=
    Capture.ofPath?_of_file h _ _
  simp only [run, hcapture]
  refine ⟨rfl, ?_, ?_⟩
  · intro hok
    rw [← outcome, hok]
  · intro failure herror
    rw [← outcome, herror]
    rfl

theorem run_of_misdirected (h : files settings.capture = .ok (.file bs))
    (hmisdirected : settings.Misdirected) :
    (settings.run files).exitCode = 1 ∧ (settings.run files).stdout = "" := by
  obtain ⟨failure, hcheck⟩ := check_of_misdirected hmisdirected
  have houtcome : settings.outcome files bs = { result := .error failure, sink := {} } :=
    Controller.retrieve_of_check hcheck {}
  obtain ⟨hstdout, _, hexit⟩ := run_of_outcome h
  rw [houtcome] at hstdout hexit
  exact ⟨hexit failure rfl, hstdout⟩

theorem run_of_not_misdirected (h : files settings.capture = .ok (.file bs))
    (hdirected : ¬ settings.Misdirected) :
    (settings.run files).exitCode = 0 ∧
      ∃ content decoded, Bytes.IsResized (settings.askedSize bs.length) bs content ∧
        settings.decode content = .ok decoded ∧
        (settings.run files).stdout = decoded.report.text := by
  obtain ⟨decoded, hdecode⟩ := settings.decode_ok bs
  have hanswer : (((settings.captureOf bs).controller files).answer
      (settings.request.query (settings.captureOf bs).lastErrorEntry)).result =
        .ok (bs.resize (settings.askedSize bs.length)) := by
    rw [← size_request]
    exact @Capture.result_answer_of_file files bs (settings.captureOf bs) h _
  have hshown : Sink.Shown {} decoded.report.text (settings.outcome files bs) :=
    Controller.shown_retrieve (check_of_not_misdirected hdirected) hanswer hdecode {}
  have hwritten := hshown.unlimited rfl
  obtain ⟨hstdout, hexit, _⟩ := run_of_outcome h
  refine ⟨hexit (hshown.ok_iff.mpr ⟨hwritten, rfl⟩), _, decoded, Bytes.isResized_resize _ bs,
    hdecode, ?_⟩
  rw [hstdout, hwritten]
  exact String.empty_append

theorem endsWith_run (h : files settings.capture = .ok (.file bs)) :
    settings.EndsWith bs (settings.run files) := by
  refine ⟨⟨?_, run_of_misdirected h⟩, run_of_not_misdirected h⟩
  rintro ⟨hexit, _⟩
  by_contra hdirected
  cases hexit.symm.trans (run_of_not_misdirected h hdirected).1

/-- A file that was just written is shown, however its path is spelled. -/
theorem endsWith_run_of_write {disk disk' : Disk} {path : String}
    (h : disk.write path bs = .ok disk')
    (hpath : disk.locate settings.capture = disk.locate path) :
    settings.EndsWith bs (settings.run disk'.find) :=
  endsWith_run (Disk.find_write h hpath)

/-! ## Settings that make no difference -/

/-- The same is asked of the same file. The number of error entries counts for the error log
only, and how much is logged for nothing. -/
structure AsksSame (settings settings' : Settings) : Prop where
  page : settings.page = settings'.page
  namespaceId : settings.namespaceId = settings'.namespaceId
  asHex : settings.asHex = settings'.asHex
  namespaceSmart : settings.namespaceSmart = settings'.namespaceSmart
  capture : settings.capture = settings'.capture
  lastErrorEntry : settings.page = 0x01 → settings.lastErrorEntry = settings'.lastErrorEntry

namespace AsksSame

theorem withVerbosity (settings : Settings) (verbosity : Nat) :
    settings.AsksSame { settings with verbosity } :=
  ⟨rfl, rfl, rfl, rfl, rfl, fun _ => rfl⟩

theorem misdirected_iff (h : settings.AsksSame settings') :
    settings.Misdirected ↔ settings'.Misdirected := by
  rw [Misdirected, Misdirected, h.page, h.namespaceId, h.namespaceSmart]

theorem askedSize_eq (h : settings.AsksSame settings') (length : Nat) :
    settings.askedSize length = settings'.askedSize length := by
  rw [askedSize, askedSize, ← h.page, ← h.asHex]
  split
  case isTrue hpage => rw [h.lastErrorEntry hpage]
  case isFalse => rfl

theorem decode_eq (h : settings.AsksSame settings') (bs : Bytes) :
    settings.decode bs = settings'.decode bs := by
  rw [decode, decode, h.page, h.asHex]

theorem showsSame (h : settings.AsksSame settings') {run run' : Run}
    (hrun : settings.EndsWith bs run) (hrun' : settings'.EndsWith bs run') :
    run'.ShowsSame run := by
  by_cases hmisdirected : settings.Misdirected
  · obtain ⟨hexit, hstdout⟩ := hrun.refused_iff.mpr hmisdirected
    obtain ⟨hexit', hstdout'⟩ := hrun'.refused_iff.mpr (h.misdirected_iff.mp hmisdirected)
    exact ⟨hexit'.trans hexit.symm, hstdout'.trans hstdout.symm⟩
  · obtain ⟨hexit, content, decoded, hcontent, hdecode, hstdout⟩ := hrun.shown hmisdirected
    obtain ⟨hexit', content', decoded', hcontent', hdecode', hstdout'⟩ :=
      hrun'.shown (mt h.misdirected_iff.mpr hmisdirected)
    rw [hcontent.eq, h.decode_eq, h.askedSize_eq, ← hcontent'.eq] at hdecode
    cases hdecode.symm.trans hdecode'
    exact ⟨hexit'.trans hexit.symm, hstdout'.trans hstdout.symm⟩

end AsksSame

end Settings

variable {args : List String} {settings : Settings} {files : Files} {bs : Bytes}

theorem run_of_settings (h : readArguments args = .ok settings) (files : Files) :
    run args files = settings.run files := by
  rw [run, h]

/-- A run on a capture that is there is refused without output exactly if a namespace is named
that the page has no place for; any other run shows the report of the file's bytes, cut or
filled to the size of the page. Asking for more log output changes nothing of that, and the
number of error entries only what is shown of the error log. -/
theorem run_of_capture (h : readArguments args = .ok settings)
    (hfile : files settings.capture = .ok (.file bs)) :
    settings.EndsWith bs (run args files) ∧
      (∀ n, (run (List.replicate n "-v" ++ args) files).ShowsSame (run args files)) ∧
      ∀ args' settings', readArguments args' = .ok settings' → settings.AsksSame settings' →
        (run args' files).ShowsSame (run args files) := by
  have hends : settings.EndsWith bs (run args files) := by
    rw [run_of_settings h]
    exact Settings.endsWith_run hfile
  have hsame : ∀ args' settings', readArguments args' = .ok settings' →
      settings.AsksSame settings' → (run args' files).ShowsSame (run args files) := by
    intro args' settings' h' hasks
    refine hasks.showsSame hends ?_
    rw [run_of_settings h']
    exact Settings.endsWith_run (hasks.capture ▸ hfile)
  refine ⟨hends, ?_, hsame⟩
  intro n
  obtain ⟨verbosity, hverbose⟩ := readArguments_verbose n args
  rw [h] at hverbose
  exact hsame _ _ hverbose (.withVerbosity settings verbosity)

/-- A file of one byte is written, and the arguments spell its path in another way. For a
namespace it is shown as a health page only where health data are kept by namespace. Verbosity
among the arguments and a number of error entries change nothing of it. -/
theorem run_of_capture_health :
    ∃ disk, Disk.write {} "smart.bin" [0x02] = .ok disk ∧
      let args := ["-p2", "-n", "1", "--ns-smart", "./smart.bin"]
      ((run args disk.find).exitCode = 0 ∧
        ∃ decoded, Decoder.health.decode 0x02 (0x02 :: List.replicate 511 0) = .ok decoded ∧
          (run args disk.find).stdout = decoded.report.text) ∧
        (run ("-v" :: args) disk.find).ShowsSame (run args disk.find) ∧
        (run ["-vvp2", "--ns-smart", "./smart.bin", "-vn1", "--elpe=7"] disk.find).ShowsSame
          (run args disk.find) ∧
        (run ["-p2", "-n", "1", "./smart.bin"] disk.find).exitCode = 1 ∧
        (run ["-p2", "-n", "1", "./smart.bin"] disk.find).stdout = "" := by
  have hlocate : Disk.locate {} "smart.bin" = .ok (.name ⟨.working, "smart.bin"⟩) := by
    decide +kernel
  have hspelled : Disk.locate {} "./smart.bin" = Disk.locate {} "smart.bin" := by decide +kernel
  obtain ⟨disk, hwrite⟩ := Disk.exists_write hlocate [0x02]
  refine ⟨disk, hwrite, ?_⟩
  intro args
  let settings : Settings :=
    { page := 0x02, namespaceId := some 1, asHex := false, namespaceSmart := true
      lastErrorEntry := none, verbosity := 0, capture := "./smart.bin" }
  have hargs : readArguments args = .ok settings := by decide +kernel
  have hmixed : readArguments ["-vvp2", "--ns-smart", "./smart.bin", "-vn1", "--elpe=7"] =
      .ok { settings with verbosity := 3, lastErrorEntry := some 7 } := by decide +kernel
  have hplain : readArguments ["-p2", "-n", "1", "./smart.bin"] =
      .ok { settings with namespaceSmart := false } := by decide +kernel
  have hfile := Disk.find_write hwrite hspelled
  obtain ⟨hends, hverbose, hsame⟩ := run_of_capture hargs hfile
  have hrefused := (run_of_capture hplain hfile).1.refused_iff
  have hdirected : ¬ settings.Misdirected := by
    rintro ⟨_, hpage | hsmart⟩
    · exact hpage rfl
    · cases hsmart
  obtain ⟨hexit, content, decoded, hcontent, hdecode, hstdout⟩ := hends.shown hdirected
  rw [hcontent.eq] at hdecode
  refine ⟨⟨hexit, decoded, hdecode, hstdout⟩, hverbose 1, ?_, hrefused.mpr ⟨rfl, .inr rfl⟩⟩
  exact hsame _ _ hmixed ⟨rfl, rfl, rfl, rfl, rfl, by decide⟩

end DriveLog.CommandLine
