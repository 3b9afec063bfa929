import DriveLog.Proofs.SubpageTiling

/-! Damage inside an extra info page. The headers of the subpages alone decide where the
subpages of a list lie, and a payload is seen by the decoder of its own subpage only. So
two pages that differ in one payload, or in bytes that nothing reads, differ in the body of
that one subpage and nowhere else. -/

namespace DriveLog.Hgst

namespace SubpageEntry

/-- The byte at this page offset lies in the subpage, be it in the header or behind it. -/
def Covers (entry : SubpageEntry) (k : Nat) : Prop := entry.offset ≤ k ∧ k < entry.past

def PayloadCovers (entry : SubpageEntry) (k : Nat) : Prop :=
  entry.offset + 4 ≤ k ∧ k < entry.past

instance (entry : SubpageEntry) (k : Nat) : Decidable (entry.PayloadCovers k) :=
  inferInstanceAs (Decidable (_ ∧ _))

/-- The subpage is shown with the same header in the same place; its body may differ. -/
structure SameFrame (entry entry' : SubpageEntry) : Prop where
  subtype_eq : entry'.subtype = entry.subtype
  reserved_eq : entry'.reserved = entry.reserved
  length_eq : entry'.length = entry.length
  offset_eq : entry'.offset = entry.offset

variable {page page' : Bytes} {stop start past k : Nat} {entries : List SubpageEntry}
  {entry a b : SubpageEntry} {w w' : Window} {own : Interval}

theorem header_le_past (entry : SubpageEntry) : entry.offset + 4 ≤ entry.past :=
  Nat.le_add_right _ _

theorem PayloadCovers.covers (h : entry.PayloadCovers k) : entry.Covers k := by
  obtain ⟨hle, hlt⟩ := h
  exact ⟨by omega, hlt⟩

theorem covers_header {i : Nat} (hi : i < 4) : entry.Covers (entry.offset + i) := by
  have hle := entry.header_le_past
  exact ⟨Nat.le_add_right _ _, by omega⟩

/-! ## Where tiles lie -/

theorem Tile.start_le_past (h : Tile page stop start entries past) : start ≤ past := by
  induction entries generalizing start with
  | nil =>
    obtain rfl : past = start := h
    exact Nat.le_refl _
  | cons entry entries ih =>
    obtain ⟨rfl, _, htail⟩ := h
    have hstop := past_ofPage page start
    have hle := ih htail
    omega

theorem Tile.of_mem (h : Tile page stop start entries past) (hmem : entry ∈ entries) :
    entry = ofPage page entry.offset ∧ start ≤ entry.offset ∧ entry.past ≤ past ∧
      entry.past ≤ stop := by
  induction entries generalizing start with
  | nil => cases hmem
  | cons head entries ih =>
    obtain ⟨rfl, hstop, htail⟩ := h
    have hpast := past_ofPage page start
    have hle := htail.start_le_past
    rcases List.mem_cons.mp hmem with rfl | hmem
    · exact ⟨rfl, Nat.le_refl _, hle, hstop⟩
    · obtain ⟨heq, hstart, hend⟩ := ih htail hmem
      exact ⟨heq, by omega, hend⟩

theorem Tile.pairwise (h : Tile page stop start entries past) :
    entries.Pairwise fun a b => a.past ≤ b.offset := by
  induction entries generalizing start with
  | nil => exact .nil
  | cons entry entries ih =>
    obtain ⟨rfl, _, htail⟩ := h
    refine .cons ?_ (ih htail)
    intro b hb
    exact (htail.of_mem hb).2.1

theorem Tile.nodup (h : Tile page stop start entries past) : entries.Nodup := by
  refine h.pairwise.imp ?_
  rintro a b hab rfl
  have hle := a.header_le_past
  omega

/-- No byte lies in two subpages of a list. -/
theorem Tile.eq_of_covers (h : Tile page stop start entries past) (ha : a ∈ entries)
    (hb : b ∈ entries) (hka : a.Covers k) (hkb : b.Covers k) : a = b := by
  have hpairs := List.pairwise_iff_getElem.mp h.pairwise
  obtain ⟨i, hi, rfl⟩ := List.getElem_of_mem ha
  obtain ⟨j, hj, rfl⟩ := List.getElem_of_mem hb
  obtain ⟨hfrom, hto⟩ := hka
  obtain ⟨hfrom', hto'⟩ := hkb
  rcases Nat.lt_trichotomy i j with hlt | rfl | hgt
  · have hapart := hpairs i j hi hj hlt
    omega
  · rfl
  · have hapart := hpairs j i hj hi hgt
    omega

/-! ## The same list on another page -/

theorem ofPage_congr {offset : Nat}
    (hkind : page.numberAt offset 1 % 0x40 = page'.numberAt offset 1 % 0x40)
    (hreserved : page.numberAt (offset + 1) 1 = page'.numberAt (offset + 1) 1)
    (hlength : page.numberAt (offset + 2) 2 = page'.numberAt (offset + 2) 2)
    (hpayload : page.slice (offset + 4) (page.numberAt (offset + 2) 2) =
      page'.slice (offset + 4) (page.numberAt (offset + 2) 2)) :
    ofPage page' offset = ofPage page offset := by
  simp only [ofPage, ← hkind, ← hreserved, ← hlength, ← hpayload]

/-- A page that gives the subpages the same lengths is tiled in the same places. -/
theorem Tile.reread (h : Tile page stop start entries past)
    (hlength : ∀ e ∈ entries, (ofPage page' e.offset).length = e.length) :
    Tile page' stop start (entries.map fun e => ofPage page' e.offset) past := by
  induction entries generalizing start with
  | nil => exact h
  | cons entry entries ih =>
    obtain ⟨rfl, hstop, htail⟩ := h
    have hlen : (ofPage page' start).length = (ofPage page start).length :=
      hlength _ List.mem_cons_self
    have hpast : (ofPage page' start).past = (ofPage page start).past := by
      rw [past_ofPage, past_ofPage, hlen]
    refine ⟨rfl, ?_, ?_⟩
    · exact Nat.le_trans (Nat.le_of_eq hpast) hstop
    · rw [show (ofPage page' (ofPage page start).offset).past = (ofPage page start).past
        from hpast]
      exact ih htail fun e he => hlength e (List.mem_cons_of_mem _ he)

/-- Two walks that are tiled in the same places, and behind which the same bytes are left,
end in the same place for the same reason. -/
theorem walk_congr (hw : w.Owns page own) (hw' : w'.Owns page' own)
    (htile : Tile page' own.hi w'.position entries (reader.walk w).rest.position)
    (hrest : page.slice (reader.walk w).rest.position
        (own.hi - (reader.walk w).rest.position) =
      page'.slice (reader.walk w).rest.position
        (own.hi - (reader.walk w).rest.position)) :
    reader.walk w' = ⟨entries, (reader.walk w).rest, (reader.walk w).fault⟩ := by
  obtain ⟨_, howns⟩ := tile_of_reads (reader.walk_reads w) hw
  obtain ⟨v, hreads, hposition, hv⟩ := reads_of_tile htile hw'
  have hunread : v.unread = (reader.walk w).rest.unread := by
    rw [hv.unread_eq, howns.unread_eq, hposition, hrest]
  obtain rfl : v = (reader.walk w).rest := hv.eq_of_unread_eq howns hposition hunread
  rw [reader.walk_of_reads hreads, reader.walk_rest, List.append_nil]

end SubpageEntry

/-! ## Damaged pages -/

namespace InfoPage

open SubpageEntry

/-- Bytes that nothing reads but the decoder of this entry: those of its payload, the unused
byte of the page's header and those behind the list. -/
def Hidden (bs : Bytes) (entry : SubpageEntry) (k : Nat) : Prop :=
  entry.PayloadCovers k ∨ k = 1 ∨ listEnd bs ≤ k

instance (bs : Bytes) (entry : SubpageEntry) (k : Nat) : Decidable (Hidden bs entry k) :=
  inferInstanceAs (Decidable (_ ∨ _))

/-- The second page is the first one with damage to hidden bytes of this entry and to the
top two bits of bytes that hold a subtype. -/
structure Damaged (bs bs' : Bytes) (page : InfoPage) (entry : SubpageEntry) : Prop where
  length_eq : bs'.length = bs.length
  agree : ∀ k < bs.length, bs[k]? = bs'[k]? ∨ Hidden bs entry k ∨
    (∃ e ∈ page.subpages, e.offset = k) ∧
      bs.numberAt k 1 % 0x40 = bs'.numberAt k 1 % 0x40

/-- The pages show the same, but for the body of the subpage with this index. -/
structure SameBut (index : Nat) (page page' : InfoPage) : Prop where
  pages_eq : page'.pages = page.pages
  length_eq : page'.length = page.length
  overrun_eq : page'.overrun = page.overrun
  count_eq : page'.subpages.length = page.subpages.length
  other : ∀ j, j ≠ index → page'.subpages[j]? = page.subpages[j]?
  frame : ∀ entry, page.subpages[index]? = some entry →
    ∃ entry', page'.subpages[index]? = some entry' ∧ entry.SameFrame entry'

variable {bs bs' : Bytes} {page : InfoPage} {entry e : SubpageEntry} {past k : Nat}

/-- A byte that lies in a subpage is hidden only if it lies in the payload of this entry. -/
theorem not_hidden (htile : Tile bs (listEnd bs) 4 page.subpages past)
    (hentry : entry ∈ page.subpages) (he : e ∈ page.subpages) (hcovers : e.Covers k)
    (hpayload : e = entry → k < e.offset + 4) : ¬ Hidden bs entry k := by
  obtain ⟨_, hstart, _, hstop⟩ := htile.of_mem he
  obtain ⟨hle, hlt⟩ := hcovers
  rintro (hin | heq | hbehind)
  · have heq := htile.eq_of_covers he hentry ⟨hle, hlt⟩ hin.covers
    have hheader := hpayload heq
    obtain ⟨hfrom, _⟩ := hin
    rw [← heq] at hfrom
    omega
  · omega
  · omega

namespace Damaged

/-- Behind the end of the pages there is nothing to damage. -/
theorem agree_at (hd : Damaged bs bs' page entry) (k : Nat) :
    bs[k]? = bs'[k]? ∨ Hidden bs entry k ∨ (∃ e ∈ page.subpages, e.offset = k) ∧
      bs.numberAt k 1 % 0x40 = bs'.numberAt k 1 % 0x40 := by
  by_cases hk : k < bs.length
  · exact hd.agree k hk
  · have hnone : bs[k]? = none := List.getElem?_eq_none (by omega)
    have hnone' : bs'[k]? = none := List.getElem?_eq_none (by rw [hd.length_eq]; omega)
    exact Or.inl (hnone.trans hnone'.symm)

theorem getElem?_eq (hd : Damaged bs bs' page entry) (hhidden : ¬ Hidden bs entry k)
    (hkind : ∀ e ∈ page.subpages, e.offset ≠ k) : bs[k]? = bs'[k]? := by
  rcases hd.agree_at k with heq | hin | ⟨⟨e, he, hoffset⟩, _⟩
  · exact heq
  · exact absurd hin hhidden
  · exact absurd hoffset (hkind e he)

theorem kind_eq (hd : Damaged bs bs' page entry) (hhidden : ¬ Hidden bs entry k) :
    bs.numberAt k 1 % 0x40 = bs'.numberAt k 1 % 0x40 := by
  rcases hd.agree_at k with heq | hin | ⟨_, hlow⟩
  · rw [Bytes.numberAt_one_congr heq]
  · exact absurd hin hhidden
  · exact hlow

section

variable (hd : Damaged bs bs' page entry)
  (htile : Tile bs (listEnd bs) 4 page.subpages past) (hentry : entry ∈ page.subpages)

include hd htile hentry

/-- The page's own header is not touched but for its unused byte. -/
theorem header_eq (hk : k < 4) (hne : k ≠ 1) : bs[k]? = bs'[k]? := by
  have hend : 4 ≤ listEnd bs := Nat.le_add_right _ _
  refine hd.getElem?_eq ?_ ?_
  · obtain ⟨_, hstart, _⟩ := htile.of_mem hentry
    rintro (⟨hle, _⟩ | heq | hle)
    · omega
    · exact hne heq
    · omega
  · intro e he hoffset
    obtain ⟨_, hstart, _⟩ := htile.of_mem he
    omega

/-- Behind its first byte a subpage is as it was up to where its payload is damaged. -/
theorem byte_eq (he : e ∈ page.subpages) (hcovers : e.Covers k) (hfirst : e.offset ≠ k)
    (hpayload : e = entry → k < e.offset + 4) : bs[k]? = bs'[k]? := by
  refine hd.getElem?_eq (not_hidden htile hentry he hcovers hpayload) ?_
  rintro e' he' rfl
  have heq := htile.eq_of_covers he he' hcovers (covers_header (i := 0) (by decide))
  exact hfirst (congrArg SubpageEntry.offset heq)

/-- Every subpage stands there with the header it had. -/
theorem sameFrame (he : e ∈ page.subpages) : e.SameFrame (ofPage bs' e.offset) := by
  have hkind : bs.numberAt e.offset 1 % 0x40 = bs'.numberAt e.offset 1 % 0x40 :=
    hd.kind_eq (not_hidden htile hentry he (covers_header (i := 0) (by decide))
      fun _ => by omega)
  have hbyte : ∀ i, 0 < i → i < 4 → bs[e.offset + i]? = bs'[e.offset + i]? := by
    intro i hpos hi
    exact hd.byte_eq htile hentry he (covers_header hi) (by omega) fun _ => by omega
  have hreserved : bs.numberAt (e.offset + 1) 1 = bs'.numberAt (e.offset + 1) 1 :=
    Bytes.numberAt_one_congr (hbyte 1 (by decide) (by decide))
  have hlength : bs.numberAt (e.offset + 2) 2 = bs'.numberAt (e.offset + 2) 2 := by
    apply Bytes.numberAt_congr
    intro k hle hlt
    obtain ⟨i, rfl⟩ := Nat.exists_eq_add_of_le hle
    rw [Nat.add_assoc]
    exact hbyte (2 + i) (by omega) (by omega)
  obtain ⟨heq, _⟩ := htile.of_mem he
  rw [heq]
  exact ⟨hkind.symm, hreserved.symm, hlength.symm, rfl⟩

/-- A subpage other than the damaged one is shown as it was. -/
theorem ofPage_eq (he : e ∈ page.subpages) (hne : e ≠ entry) : ofPage bs' e.offset = e := by
  obtain ⟨heq, _⟩ := htile.of_mem he
  have hframe := hd.sameFrame htile hentry he
  have hlength : bs.numberAt (e.offset + 2) 2 = e.length :=
    (congrArg SubpageEntry.length heq).symm
  have hpayload : bs.slice (e.offset + 4) e.length = bs'.slice (e.offset + 4) e.length := by
    apply Bytes.slice_congr
    intro k hle hlt
    exact hd.byte_eq htile hentry he ⟨by omega, hlt⟩ (by omega) fun h => absurd h hne
  refine (ofPage_congr ?_ ?_ ?_ ?_).trans heq.symm
  · exact (congrArg SubpageEntry.subtype heq).symm.trans hframe.subtype_eq.symm
  · exact (congrArg SubpageEntry.reserved heq).symm.trans hframe.reserved_eq.symm
  · exact hlength.trans hframe.length_eq.symm
  · rw [hlength]
    exact hpayload

/-- The bytes that belong to no subpage of the list agree. -/
theorem slice_rest_eq : bs.slice past (listEnd bs - past) = bs'.slice past (listEnd bs - past) := by
  have hstart := htile.start_le_past
  apply Bytes.slice_congr
  intro k hle hlt
  refine hd.getElem?_eq ?_ ?_
  · obtain ⟨_, _, hend, _⟩ := htile.of_mem hentry
    rintro (⟨_, hin⟩ | heq | hbehind)
    · omega
    · omega
    · omega
  · intro e he hoffset
    obtain ⟨_, _, hend, _⟩ := htile.of_mem he
    have hheader := e.header_le_past
    omega

end

end Damaged

/-- Whatever the payload of one subpage is made to hold, the page shows the same header, the
same overrun and the same other subpages, and that subpage in the place it had. -/
theorem ofBytes?_of_damaged (hle : 4 ≤ bs.length) :
    ∃ page, ofBytes? bs = .ok page ∧
      ∀ index entry bs', page.subpages[index]? = some entry → Damaged bs bs' page entry →
        ∃ page', ofBytes? bs' = .ok page' ∧ page.SameBut index page' := by
  refine ⟨_, ofBytes?_of_le hle, ?_⟩
  intro index entry bs' hentry hd
  have hle' : 4 ≤ bs'.length := by rw [hd.length_eq]; exact hle
  have howns := owns_list hle
  have hmem := List.mem_of_getElem? hentry
  obtain ⟨htile, _⟩ := walk_tiles howns
  have hheader : ∀ k, k < 4 → k ≠ 1 → bs[k]? = bs'[k]? :=
    fun k => hd.header_eq htile hmem
  have hpages : bs.numberAt 0 1 = bs'.numberAt 0 1 :=
    Bytes.numberAt_congr fun k _ hlt => hheader k (by omega) (by omega)
  have hlength : bs.numberAt 2 2 = bs'.numberAt 2 2 :=
    Bytes.numberAt_congr fun k hge hlt => hheader k (by omega) (by omega)
  have hend : listEnd bs' = listEnd bs := by
    rw [listEnd, listEnd, hlength, hd.length_eq]
  have howns' := owns_list hle'
  rw [hend] at howns'
  have htile' := htile.reread fun e he => (hd.sameFrame htile hmem he).length_eq
  -- The lengths alone fix where the second walk stops; what is behind is the same, so it
  -- stops for the same reason.
  have hwalk := walk_congr howns howns' htile' (hd.slice_rest_eq htile hmem)
  refine ⟨_, ofBytes?_of_le hle', ?_⟩
  rw [hwalk]
  refine ⟨hpages.symm, hlength.symm, rfl, List.length_map _, ?_, ?_⟩
  · intro j hj
    simp only [List.getElem?_map]
    cases hget : (reader.walk (list bs)).items[j]? with
    | none => rfl
    | some e =>
      have hne : e ≠ entry := by
        rintro rfl
        obtain ⟨hlt, _⟩ := List.getElem?_eq_some_iff.mp hget
        exact hj ((List.getElem?_inj hlt htile.nodup).mp (hget.trans hentry.symm))
      rw [Option.map_some, hd.ofPage_eq htile hmem (List.mem_of_getElem? hget) hne]
  · intro e he
    simp only [List.getElem?_map, he, Option.map_some]
    exact ⟨_, rfl, hd.sameFrame htile hmem (List.mem_of_getElem? he)⟩

/-- A parameter that claims more than its subpage holds, set bits beside a subtype and bytes
changed in the header and behind the list leave the two subpages around it alone. -/
theorem ofBytes?_of_damaged_parameter :
    let bs : Bytes := [3, 0, 21, 0, 0x38, 0, 4, 0, 5, 0, 0, 0, 0x02, 0, 5, 0, 0, 0x80, 0, 1, 7,
      0x3f, 1, 0, 0, 9, 9]
    let bs' : Bytes := [3, 0xff, 21, 0, 0xb8, 0, 4, 0, 5, 0, 0, 0, 0x02, 0, 5, 0, 0, 0x80, 0,
      0xff, 0x38, 0xff, 1, 0, 0, 0, 0x38]
    4 ≤ bs.length ∧ ∃ page, ofBytes? bs = .ok page ∧ page.subpages.length = 3 ∧
      ∃ page', ofBytes? bs' = .ok page' ∧ page.SameBut 1 page' := by
  intro bs bs'
  have hle : 4 ≤ bs.length := by decide
  have hpage := @ofBytes?_bytes 3 0 21 [⟨0x38, 0, [5, 0, 0, 0], by decide⟩,
    ⟨0x02, 0, [0, 0x80, 0, 1, 7], by decide⟩, ⟨0x3f, 1, [], by decide⟩] [9, 9]
    (by decide) (by decide)
  obtain ⟨page, hdecoded, hdamaged⟩ := ofBytes?_of_damaged hle
  obtain rfl := Except.ok.inj (hpage.symm.trans hdecoded)
  exact ⟨hle, _, hpage, rfl, hdamaged 1 _ bs' rfl ⟨by decide, by decide⟩⟩

end InfoPage

end DriveLog.Hgst
