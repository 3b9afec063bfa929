import DriveLog.Hgst.Subpage
import DriveLog.Window.Interval

/-! HGST's extra info page: a header that gives the length of a list of subpages, and
the list. A subpage has a header of four bytes with its subtype in the low six bits of
the first and the length of its payload in the last two. The list ends with the page at
the latest, and a subpage that does not fit ends it early. -/

namespace DriveLog.Hgst

open Text

structure SubpageEntry where
  subtype : Nat
  reserved : Nat
  length : Nat
  /-- The page offset of the subpage's header. -/
  offset : Nat
  body : Subpage

namespace SubpageEntry

def read : Reader SubpageEntry := do
  let offset ← Reader.position
  let kind ← Reader.number 1
  let reserved ← Reader.number 1
  let length ← Reader.number 2
  let payload ← Reader.take length
  let subtype := kind % 0x40
  return { subtype, reserved, length, offset, body := .ofPayload subtype reserved payload }

/-- A subpage takes four bytes at least. -/
theorem remaining_of_read {w w' : Window} {entry : SubpageEntry}
    (h : read w = .ok (entry, w')) : w'.remaining + 4 ≤ w.remaining := by
  simp only [read, Reader.bind_eq_ok_iff, Reader.position_eq_ok_iff,
    Reader.number_eq_ok_iff, Reader.take_eq_ok_iff, Reader.pure_eq_ok_iff] at h
  obtain ⟨_, _, ⟨_, rfl⟩, _, _, ⟨_, _, rfl⟩, _, _, ⟨_, _, rfl⟩, _, _, ⟨_, _, rfl⟩, _, _,
    ⟨_, _, rfl⟩, _, rfl⟩ := h
  simp only [Window.remaining_advance] at *
  omega

theorem remaining_lt_of_read {w w' : Window} {entry : SubpageEntry}
    (h : read w = .ok (entry, w')) : w'.remaining < w.remaining := by
  have hle := remaining_of_read h
  omega

def reader : ItemReader SubpageEntry where
  read := read
  remaining_lt := remaining_lt_of_read

def messages (entry : SubpageEntry) : List Message :=
  ⟨.debug, .infoPage, "subpage " ++ hexWord 2 entry.subtype ++ " at offset " ++
    decimal entry.offset ++ ", " ++ decimal entry.length ++ " bytes"⟩ :: entry.body.messages

end SubpageEntry

/-- The subpage that ran off the list. -/
structure Overrun where
  /-- The page offset of its header. -/
  offset : Nat
  cause : Shortfall
deriving DecidableEq, Repr

def Overrun.anomaly (overrun : Overrun) : Anomaly := .subpageOverrun overrun.offset

structure InfoPage where
  /-- The number of subpages the header claims. -/
  pages : Nat
  /-- The length of the list the header claims. -/
  length : Nat
  /-- How many bytes of the list the page has. -/
  available : Nat
  subpages : List SubpageEntry
  overrun : Option Overrun

namespace InfoPage

def read : Reader InfoPage := do
  let pages ← Reader.number 1
  Reader.skip 1
  let length ← Reader.number 2
  let available := min length (← Reader.remaining)
  let list ← Reader.window available
  let walk := SubpageEntry.reader.walk list
  return { pages, length, available
           subpages := walk.items
           overrun := walk.fault.map fun cause => ⟨walk.rest.position, cause⟩ }

def ofBytes? (bs : Bytes) : Except Shortfall InfoPage :=
  (read (Window.ofBytes bs)).map Prod.fst

/-- Where the list ends: where the header says, or with the page. -/
def listEnd (bs : Bytes) : Nat := 4 + min (bs.numberAt 2 2) (bs.length - 4)

/-- The window that the list is read from. -/
def list (bs : Bytes) : Window where
  start := 4
  offset := 0
  unread := (bs.drop 4).take (min (bs.numberAt 2 2) (bs.length - 4))

section

variable {bs : Bytes}

theorem owns_list (h : 4 ≤ bs.length) : (list bs).Owns bs ⟨4, listEnd bs⟩ := by
  have hpage := (Window.Owns.ofBytes bs).advance h
  exact hpage.cut (Nat.min_le_right _ _)

/-- Whatever its list holds, a page with a whole header is decoded. -/
theorem ofBytes?_of_le (h : 4 ≤ bs.length) :
    ofBytes? bs = .ok
      { pages := bs.numberAt 0 1
        length := bs.numberAt 2 2
        available := min (bs.numberAt 2 2) (bs.length - 4)
        subpages := (SubpageEntry.reader.walk (list bs)).items
        overrun := (SubpageEntry.reader.walk (list bs)).fault.map fun cause =>
          ⟨(SubpageEntry.reader.walk (list bs)).rest.position, cause⟩ } := by
  have hpages : 1 ≤ (Window.ofBytes bs).remaining := by
    rw [Window.remaining_ofBytes]; omega
  have hskip : 1 ≤ ((Window.ofBytes bs).advance 1).remaining := by
    rw [Window.remaining_advance, Window.remaining_ofBytes]; omega
  have hlength : 2 ≤ (((Window.ofBytes bs).advance 1).advance 1).remaining := by
    simp only [Window.remaining_advance, Window.remaining_ofBytes]; omega
  have howns := (Window.Owns.ofBytes bs).advance hpages
  have hlist : min (bs.numberAt 2 2) (bs.length - 4) ≤
      ((Window.ofBytes bs).advance 4).remaining := Nat.min_le_right _ _
  rw [ofBytes?, read, Reader.bind_of_ok (Reader.number_of_le hpages),
    (Window.Owns.ofBytes bs).ofLE_take_unread hpages,
    Reader.bind_of_ok (Reader.skip_of_le hskip),
    Reader.bind_of_ok (Reader.number_of_le hlength),
    (howns.advance hskip).ofLE_take_unread hlength]
  rw [Reader.bind_of_ok Reader.run_remaining]
  simp only [Window.advance_advance, Window.position_advance, Window.position_ofBytes,
    Window.remaining_advance, Window.remaining_ofBytes, Nat.zero_add, Nat.reduceAdd]
  rw [Reader.bind_of_ok (Reader.window_of_le hlist)]
  rfl

theorem ofBytes?_of_lt (h : bs.length < 4) : ∃ e, ofBytes? bs = .error e := by
  match bs, h with
  | [], _ | [_], _ | [_, _], _ | [_, _, _], _ => exact ⟨_, rfl⟩
  | _ :: _ :: _ :: _ :: _, h =>
    simp only [List.length_cons] at h
    omega

theorem le_length_of_ofBytes? {page : InfoPage} (h : ofBytes? bs = .ok page) :
    4 ≤ bs.length := by
  rcases Nat.lt_or_ge bs.length 4 with hlt | hle
  · obtain ⟨e, herror⟩ := ofBytes?_of_lt hlt
    cases herror.symm.trans h
  · exact hle

end

def claimMessages (page : InfoPage) : List Message :=
  if page.available < page.length then
    [⟨.warn, .infoPage, "subpage list claims " ++ decimal page.length ++ " bytes, only " ++
      decimal page.available ++ " in the buffer"⟩]
  else []

def overrunMessages (page : InfoPage) : List Message :=
  match page.overrun with
  | none => []
  | some overrun =>
    [⟨.warn, .infoPage, "subpage at offset " ++ decimal overrun.offset ++
      " runs off the list: " ++ overrun.cause.message⟩]

def messages (page : InfoPage) : List Message :=
  page.claimMessages ++ page.subpages.flatMap SubpageEntry.messages ++ page.overrunMessages

def report (page : InfoPage) : Report :=
  Report.heading "HGST Extra Info Log" ++
    ["Subpages: " ++ decimal page.pages ++ ", list length: " ++ decimal page.length] ++
    page.subpages.flatMap (fun entry => entry.body.report) ++
    (page.overrun.map fun overrun => overrun.anomaly.message).toList

end InfoPage

end DriveLog.Hgst
