import DriveLog.Proofs.CapturedErrorLog
import DriveLog.Retrieval.Disk

/-! Captures on a disk. Where a path leads is decided by its components and not by the files.
A file that is written is found under every path that leads to its place, one that is removed
under none, and a path that leads elsewhere finds what it found before. A capture that is open
goes by the bytes that are there when it is asked. -/

namespace DriveLog

namespace Disk

variable {disk disk' : Disk} {path path' : String} {bs : Bytes} {place : Place}
  {location : Location}

/-! ## Paths -/

/-- A walk that arrives has looked at no file on its way. -/
theorem walk_eq_ok {directory : Directory} {components : List String}
    (h : disk.walk directory components = .ok place) (disk' : Disk) :
    disk'.walk directory components = .ok place := by
  fun_induction walk disk directory components with
  | case1 directory => exact h
  | case2 directory component rest hidle ih =>
    rw [walk, if_pos hidle]
    exact ih h
  | case3 directory rest hidle ih =>
    rw [walk, if_neg hidle, if_pos rfl]
    exact ih h
  | case4 => cases h
  | case5 directory component rest hidle hparent hlength location hlast =>
    rw [walk, if_neg hidle, if_neg hparent, if_neg hlength]
    simp only [hlast, if_true]
    exact h
  | case6 => cases h
  | case7 => cases h

theorem locate_eq_ok (h : disk.locate path = .ok place) (disk' : Disk) :
    disk'.locate path = .ok place := by
  rw [locate] at h ⊢
  split at h
  case isTrue => cases h
  case isFalse hnul =>
    rw [if_neg hnul]
    split at h
    case isTrue => cases h
    case isFalse hempty =>
      rw [if_neg hempty]
      split at h
      case isTrue => cases h
      case isFalse hlength =>
        rw [if_neg hlength]
        exact walk_eq_ok h disk'

theorem locateName_eq_ok_iff :
    disk.locateName path = .ok location ↔ disk.locate path = .ok (.name location) := by
  unfold locateName
  cases disk.locate path with
  | error fault => exact iff_of_false nofun nofun
  | ok place =>
    cases place with
    | directory directory => exact iff_of_false nofun nofun
    | name found => simp [bind, Except.bind, pure, Except.pure]

/-! ## Files -/

theorem find_of_locate (h : disk.locate path = .ok (.name location)) :
    disk.find path =
      match disk.contents? location with
      | none => .error .notFound
      | some bs => .ok (.file bs) := by
  rw [find, h]
  rfl

/-- What a path finds depends on the one place it leads to. -/
theorem find_congr (h : disk.locate path = .ok place)
    (hcontents : ∀ location, place = .name location →
      disk'.contents? location = disk.contents? location) :
    disk'.find path = disk.find path := by
  have h' := locate_eq_ok h disk'
  cases place with
  | directory directory =>
    rw [find, find, h, h']
    rfl
  | name location => rw [find_of_locate h, find_of_locate h', hcontents location rfl]

theorem write_eq_ok_iff : disk.write path bs = .ok disk' ↔
    ∃ location, disk.locate path = .ok (.name location) ∧
      disk' = disk.put location (some bs) := by
  unfold write
  simp only [← locateName_eq_ok_iff]
  cases disk.locateName path with
  | error fault => exact iff_of_false nofun nofun
  | ok location => simp [pure, Except.pure, bind, Except.bind, eq_comm]

theorem exists_write (h : disk.locate path = .ok (.name location)) (bs : Bytes) :
    ∃ disk', disk.write path bs = .ok disk' :=
  ⟨_, write_eq_ok_iff.mpr ⟨location, h, rfl⟩⟩

theorem remove_eq_ok_iff : disk.remove path = .ok disk' ↔
    ∃ location, disk.locate path = .ok (.name location) ∧
      (disk.contents? location).isSome ∧ disk' = disk.put location none := by
  unfold remove
  simp only [← locateName_eq_ok_iff]
  cases disk.locateName path with
  | error fault => exact iff_of_false nofun nofun
  | ok found =>
    simp only [Except.ok.injEq, exists_eq_left']
    show (if (disk.contents? found).isSome then Except.ok (disk.put found none)
      else Except.error FileFault.notFound) = Except.ok disk' ↔ _
    split
    case isTrue hthere => rw [Except.ok.injEq, and_iff_right hthere, eq_comm]
    case isFalse hthere => exact iff_of_false nofun fun h => hthere h.1

/-- New contents of one place are found there. -/
theorem find_put_self (h : disk.locate path = .ok (.name location)) (contents : Option Bytes) :
    (disk.put location contents).find path =
      match contents with
      | none => .error .notFound
      | some bs => .ok (.file bs) := by
  rw [find_of_locate (locate_eq_ok h _), contents?_put, if_pos rfl]

/-- A path that leads elsewhere finds what it found before. -/
theorem find_put_of_ne (h : disk.locate path = .ok (.name location))
    (hpath : disk.locate path' = .ok place) (hne : disk.locate path' ≠ disk.locate path)
    (contents : Option Bytes) : (disk.put location contents).find path' = disk.find path' := by
  apply find_congr hpath
  intro other hother
  have hne' : other ≠ location := fun heq => hne (by rw [hpath, hother, heq, h])
  rw [contents?_put, if_neg hne']

/-- A file that is written is found under every path to its place. -/
theorem find_write (h : disk.write path bs = .ok disk')
    (hpath : disk.locate path' = disk.locate path) : disk'.find path' = .ok (.file bs) := by
  obtain ⟨location, hlocate, rfl⟩ := write_eq_ok_iff.mp h
  exact find_put_self (hpath.trans hlocate) (some bs)

theorem find_write_of_ne (h : disk.write path bs = .ok disk')
    (hpath : disk.locate path' = .ok place) (hne : disk.locate path' ≠ disk.locate path) :
    disk'.find path' = disk.find path' := by
  obtain ⟨location, hlocate, rfl⟩ := write_eq_ok_iff.mp h
  exact find_put_of_ne hlocate hpath hne (some bs)

theorem find_remove (h : disk.remove path = .ok disk')
    (hpath : disk.locate path' = disk.locate path) : disk'.find path' = .error .notFound := by
  obtain ⟨location, hlocate, _, rfl⟩ := remove_eq_ok_iff.mp h
  exact find_put_self (hpath.trans hlocate) none

theorem find_remove_of_ne (h : disk.remove path = .ok disk')
    (hpath : disk.locate path' = .ok place) (hne : disk.locate path' ≠ disk.locate path) :
    disk'.find path' = disk.find path' := by
  obtain ⟨location, hlocate, _, rfl⟩ := remove_eq_ok_iff.mp h
  exact find_put_of_ne hlocate hpath hne none

end Disk

/-! ## Open captures -/

namespace Capture

variable {capture : Capture} {disk disk' : Disk} {path : String} {bs : Bytes}

/-- The bytes written last are answered with, whatever was there when the capture was opened. -/
theorem result_answer_of_write (h : disk.write path bs = .ok disk')
    (hpath : disk.locate capture.path = disk.locate path) (query : Query) :
    (capture.answer disk'.find query).result = .ok (bs.resize query.size) :=
  result_answer_of_file (Disk.find_write h hpath) query

/-- What is written elsewhere makes no difference. -/
theorem answer_of_write_of_ne {place : Place} (h : disk.write path bs = .ok disk')
    (hpath : disk.locate capture.path = .ok place)
    (hne : disk.locate capture.path ≠ disk.locate path) (query : Query) :
    capture.answer disk'.find query = capture.answer disk.find query := by
  rw [answer, answer, Disk.find_write_of_ne h hpath hne]

theorem result_answer_of_remove (h : disk.remove path = .ok disk')
    (hpath : disk.locate capture.path = disk.locate path) (query : Query) :
    (capture.answer disk'.find query).result =
      .error (.io "No such file or directory (os error 2)") := by
  rw [answer, Disk.find_remove h hpath]
  rfl

/-- A capture whose file is gone fails every request that makes sense, and shows nothing. -/
theorem retrieve_of_remove {request : Request} (h : disk.remove path = .ok disk')
    (hpath : disk.locate capture.path = disk.locate path)
    (hcheck : request.check capture.namespaceSmart = .ok ()) (sink : Sink) :
    ∃ messages, (capture.controller disk'.find).retrieve request sink =
      { result := .error (.transport request.page (.io "No such file or directory (os error 2)"))
        queries := [request.query capture.lastErrorEntry], sink, messages } :=
  Controller.retrieve_of_transport hcheck (result_answer_of_remove h hpath _) sink

end Capture

end DriveLog
