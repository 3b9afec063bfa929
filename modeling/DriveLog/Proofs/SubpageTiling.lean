import DriveLog.Hgst.InfoPage

/-! The subpages of an extra info page tile its list. They lie one behind the other from
the page's header on, and what is left behind the last of them, if anything, holds no
whole subpage. -/

namespace DriveLog.Hgst

namespace SubpageEntry

/-- The subpage that the page holds at this offset. -/
def ofPage (page : Bytes) (offset : Nat) : SubpageEntry where
  subtype := page.numberAt offset 1 % 0x40
  reserved := page.numberAt (offset + 1) 1
  length := page.numberAt (offset + 2) 2
  offset := offset
  body := .ofPayload (page.numberAt offset 1 % 0x40) (page.numberAt (offset + 1) 1)
    (page.slice (offset + 4) (page.numberAt (offset + 2) 2))

/-- The page offset just behind the subpage's payload. -/
def past (entry : SubpageEntry) : Nat := entry.offset + 4 + entry.length

/-- The entries are the page's own, lie one behind the other from `start` to `past`, and
none of them goes beyond `stop`. -/
def Tile (page : Bytes) (stop : Nat) (start : Nat) : List SubpageEntry → Nat → Prop
  | [], past => past = start
  | entry :: entries, past =>
    entry = ofPage page start ∧ entry.past ≤ stop ∧ Tile page stop entry.past entries past

/-- No whole subpage lies at this offset: fewer bytes than a header are left before
`stop`, or the header claims a longer payload than is left behind it. -/
def CutAt (page : Bytes) (stop offset : Nat) : Prop :=
  stop - offset < 4 ∨ stop - offset - 4 < page.numberAt (offset + 2) 2

instance (page : Bytes) (stop offset : Nat) : Decidable (CutAt page stop offset) :=
  inferInstanceAs (Decidable (_ ∨ _))

variable {page : Bytes} {w w' : Window} {own : Interval} {entries : List SubpageEntry}
  {past : Nat}

theorem past_ofPage (page : Bytes) (offset : Nat) :
    (ofPage page offset).past = offset + (4 + (ofPage page offset).length) :=
  Nat.add_assoc _ _ _

theorem past_ofPage_le_iff {stop offset : Nat} :
    (ofPage page offset).past ≤ stop ↔ ¬ CutAt page stop offset := by
  unfold CutAt
  simp only [ofPage, SubpageEntry.past]
  omega

/-- A subpage that lies whole in the window's interval is read. -/
theorem read_of_not_cutAt (hw : w.Owns page own) (h : ¬ CutAt page own.hi w.position) :
    read w = .ok (ofPage page w.position,
      w.advance (4 + (ofPage page w.position).length)) := by
  have hrem := hw.remaining_eq
  unfold CutAt at h
  have hkind : 1 ≤ w.remaining := by omega
  have hw1 := hw.advance hkind
  have hreserved : 1 ≤ (w.advance 1).remaining := by
    rw [Window.remaining_advance]; omega
  have hw2 := hw1.advance hreserved
  have hlength : 2 ≤ ((w.advance 1).advance 1).remaining := by
    simp only [Window.remaining_advance]; omega
  have hw4 := hw2.advance hlength
  have hpayload : page.numberAt (w.position + 2) 2 ≤
      (((w.advance 1).advance 1).advance 2).remaining := by
    simp only [Window.remaining_advance]; omega
  rw [read, Reader.bind_of_ok Reader.run_position,
    Reader.bind_of_ok (Reader.number_of_le hkind), hw.ofLE_take_unread hkind,
    Reader.bind_of_ok (Reader.number_of_le hreserved), hw1.ofLE_take_unread hreserved,
    Reader.bind_of_ok (Reader.number_of_le hlength), hw2.ofLE_take_unread hlength]
  simp only [Window.position_advance]
  rw [Reader.bind_of_ok (Reader.take_of_le hpayload), hw4.take_unread hpayload]
  simp only [Window.position_advance, Window.advance_advance]
  rfl

theorem read_of_cutAt (hw : w.Owns page own) (h : CutAt page own.hi w.position) :
    ∃ e, read w = .error e := by
  cases hr : read w with
  | error e => exact ⟨e, rfl⟩
  | ok r =>
    obtain ⟨entry, w'⟩ := r
    exfalso
    have hrem := hw.remaining_eq
    simp only [read, Reader.bind_eq_ok_iff, Reader.position_eq_ok_iff,
      Reader.number_eq_ok_iff, Reader.take_eq_ok_iff] at hr
    obtain ⟨_, _, ⟨_, rfl⟩, _, _, ⟨hkind, _, rfl⟩, _, _, ⟨hreserved, _, rfl⟩, _, _,
      ⟨hlength, rfl, rfl⟩, _, _, ⟨hpayload, _, _⟩, _⟩ := hr
    rw [((hw.advance hkind).advance hreserved).ofLE_take_unread hlength] at hpayload
    simp only [Window.remaining_advance, Window.position_advance, Nat.add_assoc,
      Nat.reduceAdd] at hreserved hlength hpayload
    unfold CutAt at h
    omega

/-! ## Tiles -/

/-- What is read one after another tiles the window's interval up to where it leads. -/
theorem tile_of_reads (h : reader.Reads w entries w') (hw : w.Owns page own) :
    Tile page own.hi w.position entries w'.position ∧ w'.Owns page own := by
  induction h with
  | nil => exact ⟨rfl, hw⟩
  | @cons w v w' entry entries hr _ ih =>
    by_cases hcut : CutAt page own.hi w.position
    · obtain ⟨e, herror⟩ := read_of_cutAt hw hcut
      cases hr.symm.trans herror
    · obtain ⟨rfl, rfl⟩ : entry = ofPage page w.position ∧
          v = w.advance (4 + (ofPage page w.position).length) := by
        have heq := hr.symm.trans (read_of_not_cutAt hw hcut)
        cases heq
        exact ⟨rfl, rfl⟩
      have hpast := past_ofPage_le_iff.mpr hcut
      have hstop := past_ofPage page w.position
      have hrem := hw.remaining_eq
      obtain ⟨htile, howns⟩ := ih (hw.advance (by omega))
      rw [Window.position_advance, ← hstop] at htile
      exact ⟨⟨rfl, hpast, htile⟩, howns⟩

/-- What tiles the front of the window's interval is read one after another. -/
theorem reads_of_tile (h : Tile page own.hi w.position entries past) (hw : w.Owns page own) :
    ∃ w', reader.Reads w entries w' ∧ w'.position = past ∧ w'.Owns page own := by
  induction entries generalizing w with
  | nil =>
    obtain rfl : past = w.position := h
    exact ⟨w, .nil, rfl, hw⟩
  | cons entry entries ih =>
    obtain ⟨rfl, hpast, htile⟩ := h
    have hstop := past_ofPage page w.position
    have hrem := hw.remaining_eq
    have hroom : 4 + (ofPage page w.position).length ≤ w.remaining := by omega
    rw [hstop, ← Window.position_advance] at htile
    have hread := read_of_not_cutAt hw (past_ofPage_le_iff.mp hpast)
    obtain ⟨w', hreads, hposition, howns⟩ := ih htile (hw.advance hroom)
    exact ⟨w', .cons hread hreads, hposition, howns⟩

/-- A walk tiles its interval, up to the end or up to where no whole subpage lies. -/
theorem walk_tiles (hw : w.Owns page own) :
    Tile page own.hi w.position (reader.walk w).items (reader.walk w).rest.position ∧
      ((reader.walk w).fault = none ∧ (reader.walk w).rest.position = own.hi ∨
        ∃ e, (reader.walk w).fault = some e ∧ (reader.walk w).rest.position < own.hi ∧
          CutAt page own.hi (reader.walk w).rest.position) := by
  obtain ⟨htile, howns⟩ := tile_of_reads (reader.walk_reads w) hw
  have hstops := reader.walk_stops w
  have hle := howns.position_le_hi
  have hrem := howns.remaining_eq
  refine ⟨htile, ?_⟩
  cases hfault : (reader.walk w).fault with
  | none =>
    rw [hfault] at hstops
    exact Or.inl ⟨rfl, by omega⟩
  | some e =>
    rw [hfault] at hstops
    obtain ⟨hne, herror⟩ := hstops
    refine Or.inr ⟨e, rfl, by omega, ?_⟩
    by_cases hcut : CutAt page own.hi (reader.walk w).rest.position
    · exact hcut
    · have hok : read (reader.walk w).rest = .error e := herror
      rw [read_of_not_cutAt howns hcut] at hok
      cases hok

/-- What tiles the whole of a window's interval is all that a walk finds. -/
theorem walk_of_tile (hw : w.Owns page own) (h : Tile page own.hi w.position entries own.hi) :
    (reader.walk w).items = entries ∧ (reader.walk w).fault = none := by
  obtain ⟨w', hreads, hposition, howns⟩ := reads_of_tile h hw
  have hempty : w'.remaining = 0 := by
    rw [howns.remaining_eq, hposition, Nat.sub_self]
  rw [reader.walk_of_reads_all hreads hempty]
  exact ⟨rfl, rfl⟩

end SubpageEntry

/-! ## Stored subpages -/

/-- A subpage as it stands in a list. -/
structure StoredSubpage where
  kind : UInt8
  reserved : UInt8
  payload : Bytes
  length_lt : payload.length < 0x10000

namespace StoredSubpage

def bytes (s : StoredSubpage) : Bytes :=
  [s.kind, s.reserved] ++ Bytes.toLE 2 s.payload.length ++ s.payload

/-- What a page shows of the subpage where its header stands at this offset. -/
def entry (offset : Nat) (s : StoredSubpage) : SubpageEntry where
  subtype := s.kind.toNat % 0x40
  reserved := s.reserved.toNat
  length := s.payload.length
  offset := offset
  body := .ofPayload (s.kind.toNat % 0x40) s.reserved.toNat s.payload

/-- What a page shows of subpages that lie one behind the other from this offset on. -/
def entriesFrom (offset : Nat) : List StoredSubpage → List SubpageEntry
  | [] => []
  | s :: stored => s.entry offset :: entriesFrom (offset + 4 + s.payload.length) stored

@[simp] theorem length_bytes (s : StoredSubpage) : s.bytes.length = 4 + s.payload.length := by
  simp only [bytes, List.length_append, List.length_cons, List.length_nil, Bytes.length_toLE]

theorem ofPage_bytes (s : StoredSubpage) (front rest : Bytes) :
    SubpageEntry.ofPage (front ++ (s.bytes ++ rest)) front.length = s.entry front.length := by
  have hkind : Bytes.numberAt 0 1 (s.bytes ++ rest) = s.kind.toNat := by
    simp [Bytes.numberAt, Bytes.slice, bytes]
  have hreserved : Bytes.numberAt 1 1 (s.bytes ++ rest) = s.reserved.toNat := by
    simp [Bytes.numberAt, Bytes.slice, bytes]
  have hlength : Bytes.numberAt 2 2 (s.bytes ++ rest) = s.payload.length := by
    simp [Bytes.numberAt, Bytes.slice, bytes, Bytes.ofLE_toLE_two s.length_lt]
  have hpayload : Bytes.slice 4 s.payload.length (s.bytes ++ rest) = s.payload := by
    simp [Bytes.slice, bytes, Bytes.toLE]
  have hkind' := Bytes.numberAt_append_right front (s.bytes ++ rest) 0 1
  rw [Nat.add_zero] at hkind'
  simp only [SubpageEntry.ofPage, entry, hkind', Bytes.numberAt_append_right,
    Bytes.slice_append_right, hkind, hreserved, hlength, hpayload]

/-- Subpages stored one behind the other tile the bytes they take. -/
theorem tile_entriesFrom (stored : List StoredSubpage) (front rest : Bytes) {stop : Nat}
    (h : front.length + (stored.flatMap bytes).length ≤ stop) :
    SubpageEntry.Tile (front ++ (stored.flatMap bytes ++ rest)) stop front.length
      (entriesFrom front.length stored) (front.length + (stored.flatMap bytes).length) := by
  induction stored generalizing front with
  | nil => rfl
  | cons s stored ih =>
    rw [List.flatMap_cons, List.length_append, s.length_bytes] at h ⊢
    have hfront : (front ++ s.bytes).length = front.length + 4 + s.payload.length := by
      rw [List.length_append, s.length_bytes, Nat.add_assoc]
    have htile := ih (front ++ s.bytes) (by omega)
    rw [hfront] at htile
    simp only [List.append_assoc] at htile ⊢
    refine ⟨(s.ofPage_bytes front _).symm, ?_, ?_⟩
    · simp only [entry, SubpageEntry.past]
      omega
    · have hpast : (s.entry front.length).past = front.length + 4 + s.payload.length := rfl
      have hsum : front.length + (4 + s.payload.length + (stored.flatMap bytes).length) =
          front.length + 4 + s.payload.length + (stored.flatMap bytes).length := by omega
      rw [hpast, hsum]
      exact htile

end StoredSubpage

/-! ## Pages -/

namespace InfoPage

/-- A page is what its bytes hold: its header, the subpages that tile the list up to
`past`, and the overrun that stands there unless that is the end of the list. -/
structure Describes (bs : Bytes) (past : Nat) (page : InfoPage) : Prop where
  pages_eq : page.pages = bs.numberAt 0 1
  length_eq : page.length = bs.numberAt 2 2
  tile : SubpageEntry.Tile bs (listEnd bs) 4 page.subpages past
  past_le : past ≤ listEnd bs
  overrun_eq : page.overrun.map Overrun.anomaly =
    if past = listEnd bs then none else some (.subpageOverrun past)
  cut : past ≠ listEnd bs → past < listEnd bs ∧ SubpageEntry.CutAt bs (listEnd bs) past

variable {bs : Bytes}

theorem exists_describes (h : 4 ≤ bs.length) :
    ∃ page past, ofBytes? bs = .ok page ∧ page.Describes bs past := by
  obtain ⟨htile, hend⟩ := SubpageEntry.walk_tiles (owns_list h)
  refine ⟨_, _, ofBytes?_of_le h, rfl, rfl, htile, ?_, ?_, ?_⟩
  · rcases hend with ⟨_, heq⟩ | ⟨_, _, hlt, _⟩
    · exact Nat.le_of_eq heq
    · exact Nat.le_of_lt hlt
  · rcases hend with ⟨hnone, heq⟩ | ⟨e, hsome, hlt, _⟩
    · rw [if_pos heq, hnone]
      rfl
    · rw [if_neg (Nat.ne_of_lt hlt), hsome]
      rfl
  · intro hne
    rcases hend with ⟨_, heq⟩ | ⟨_, _, hlt, hcut⟩
    · exact absurd heq hne
    · exact ⟨hlt, hcut⟩

/-- Entries that tile the whole list are all that a page shows. -/
theorem ofBytes?_of_tile {entries : List SubpageEntry} (h : 4 ≤ bs.length)
    (htile : SubpageEntry.Tile bs (listEnd bs) 4 entries (listEnd bs)) :
    ofBytes? bs = .ok
      { pages := bs.numberAt 0 1
        length := bs.numberAt 2 2
        available := min (bs.numberAt 2 2) (bs.length - 4)
        subpages := entries
        overrun := none } := by
  obtain ⟨hitems, hfault⟩ := SubpageEntry.walk_of_tile (owns_list h) htile
  rw [ofBytes?_of_le h, hitems, hfault]
  rfl

/-! ## Stored pages -/

/-- A page with this header and this list behind it. -/
def bytes (pages unused : UInt8) (length : Nat) (list : Bytes) : Bytes :=
  [pages, unused] ++ Bytes.toLE 2 length ++ list

theorem length_header (pages unused : UInt8) (length : Nat) :
    ([pages, unused] ++ Bytes.toLE 2 length).length = 4 := by
  rw [List.length_append, Bytes.length_toLE]
  rfl

section

variable (pages unused : UInt8) {length : Nat} (list : Bytes)

theorem length_bytes : (bytes pages unused length list).length = 4 + list.length := by
  rw [bytes, List.length_append, length_header]

theorem pages_bytes : (bytes pages unused length list).numberAt 0 1 = pages.toNat := by
  simp [Bytes.numberAt, Bytes.slice, bytes]

theorem numberAt_length_bytes (h : length < 0x10000) :
    (bytes pages unused length list).numberAt 2 2 = length := by
  simp [Bytes.numberAt, Bytes.slice, bytes, Bytes.ofLE_toLE_two h]

end

/-- Subpages that fill the list, as far as the page has it, are all that a page shows. -/
theorem ofBytes?_bytes (pages unused : UInt8) {length : Nat} (stored : List StoredSubpage)
    (rest : Bytes) (hlt : length < 0x10000)
    (hfill : min length ((stored.flatMap StoredSubpage.bytes).length + rest.length) =
      (stored.flatMap StoredSubpage.bytes).length) :
    ofBytes? (bytes pages unused length (stored.flatMap StoredSubpage.bytes ++ rest)) =
      .ok
        { pages := pages.toNat
          length := length
          available := (stored.flatMap StoredSubpage.bytes).length
          subpages := StoredSubpage.entriesFrom 4 stored
          overrun := none } := by
  have htile := StoredSubpage.tile_entriesFrom stored ([pages, unused] ++ Bytes.toLE 2 length)
    rest (Nat.le_refl _)
  rw [length_header, ← bytes] at htile
  generalize hlist : stored.flatMap StoredSubpage.bytes ++ rest = list at htile ⊢
  have hlength := numberAt_length_bytes pages unused list hlt
  have havailable : min (Bytes.numberAt 2 2 (bytes pages unused length list))
      ((bytes pages unused length list).length - 4) =
        (stored.flatMap StoredSubpage.bytes).length := by
    rw [hlength, length_bytes, Nat.add_sub_cancel_left, ← hlist, List.length_append, hfill]
  rw [← havailable, ← listEnd] at htile
  have hle : 4 ≤ (bytes pages unused length list).length := by
    rw [length_bytes]
    exact Nat.le_add_right _ _
  rw [ofBytes?_of_tile hle htile, pages_bytes, havailable, hlength]

/-- Every page with a whole header is decoded into the subpages that tile its list, and
stored subpages that fill the list come back in order. -/
theorem ofBytes?_tiles :
    (∀ bs : Bytes, 4 ≤ bs.length →
      ∃ page past, ofBytes? bs = .ok page ∧ page.Describes bs past) ∧
    ∀ (pages unused : UInt8) (length : Nat) (stored : List StoredSubpage) (rest : Bytes),
      length < 0x10000 →
      min length ((stored.flatMap StoredSubpage.bytes).length + rest.length) =
        (stored.flatMap StoredSubpage.bytes).length →
      ofBytes? (bytes pages unused length (stored.flatMap StoredSubpage.bytes ++ rest)) =
        .ok
          { pages := pages.toNat
            length := length
            available := (stored.flatMap StoredSubpage.bytes).length
            subpages := StoredSubpage.entriesFrom 4 stored
            overrun := none } :=
  ⟨fun _ => exists_describes,
    fun pages unused _ stored rest => ofBytes?_bytes pages unused stored rest⟩

/-- A list of two subpages of which the second is cut, and a list of one that is claimed
longer than the page is. -/
theorem ofBytes?_tiles_cut :
    (∃ page past,
      ofBytes? [2, 0, 9, 0, 0x3f, 0, 1, 0, 7, 0x82, 0, 4, 0] = .ok page ∧
        page.Describes [2, 0, 9, 0, 0x3f, 0, 1, 0, 7, 0x82, 0, 4, 0] past) ∧
    ofBytes? (bytes 1 0 0xffff ([⟨0x3f, 0, [7], by decide⟩].flatMap StoredSubpage.bytes)) =
      .ok
        { pages := 1, length := 0xffff, available := 5, overrun := none
          subpages := [⟨0x3f, 0, 1, 4, .ofPayload 0x3f 0 [7]⟩] } :=
  ⟨ofBytes?_tiles.1 _ (by decide),
    ofBytes?_tiles.2 1 0 0xffff [⟨0x3f, 0, [7], by decide⟩] [] (by decide) (by decide)⟩

end InfoPage

end DriveLog.Hgst
