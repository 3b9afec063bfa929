import Mathlib.Data.List.DropRight
import DriveLog.Proofs.ReportedBytes

/-! Firmware slot reports read back. The zeros cut off a revision fill it up to its eight bytes,
so what is left tells all of them. A text is shorter than the hexadecimal digits that stand for
any other revision, and a tag stands before both: whatever words a drive puts into a slot, they
imitate neither the other form nor an empty slot. -/

namespace DriveLog

open Text

/-! ## Revisions -/

namespace Revision

variable {bs bs' : Bytes} {r r' : Revision} {active active' : Bool}

theorem trim_eq (bs : Bytes) : trim bs = bs.rdropWhile (· = 0) := rfl

theorem trim_eq_nil_iff : trim bs = [] ↔ ∀ b ∈ bs, b = 0 := by
  rw [trim_eq, List.rdropWhile_eq_nil_iff]
  simp only [decide_eq_true_iff]

theorem length_trim_le (bs : Bytes) : (trim bs).length ≤ bs.length :=
  (List.rdropWhile_prefix _ bs).length_le

/-- What is cut off can be filled in again. -/
theorem resize_trim (bs : Bytes) : Bytes.resize bs.length (trim bs) = bs := by
  rw [Bytes.resize, List.take_of_length_le (length_trim_le bs)]
  exact Bytes.dropWhile_append_zeros bs

theorem ofBytes_eq (bs : Bytes) : ofBytes bs =
    if trim bs = [] then empty
    else if (trim bs).all isPrintable then text (String.ofList ((trim bs).map Char.ofUInt8))
    else binary (Bytes.ofLE bs) := by
  simp only [ofBytes, List.isEmpty_iff]

theorem ofBytes_eq_empty_iff : ofBytes bs = empty ↔ ∀ b ∈ bs, b = 0 := by
  rw [← trim_eq_nil_iff, ofBytes_eq]
  by_cases h : trim bs = []
  · rw [if_pos h]
    exact iff_of_true rfl h
  · rw [if_neg h]
    split <;> exact iff_of_false nofun h

/-- The bytes that a revision was made of, but for zeros that may be missing at their end. -/
def toBytes : Revision → Bytes
  | empty => []
  | text s => utf8 s
  | binary n => Bytes.toLE 8 n

theorem toUInt8_ofUInt8 (b : UInt8) : (Char.ofUInt8 b).toUInt8 = b := by
  apply UInt8.toNat_inj.mp
  exact (UInt32.toNat_toUInt8 _).trans (Nat.mod_eq_of_lt b.toNat_lt)

theorem utf8_ofList_map (h : bs.all isPrintable = true) :
    utf8 (String.ofList (bs.map Char.ofUInt8)) = bs := by
  have hascii : ∀ c ∈ (String.ofList (bs.map Char.ofUInt8)).toList, c.toNat < 0x80 := by
    intro c hc
    rw [String.toList_ofList] at hc
    obtain ⟨b, hb, rfl⟩ := List.mem_map.mp hc
    have hprintable := FirmwareSlots.printableChar_ofUInt8 (List.all_eq_true.mp h b hb)
    exact Nat.lt_of_le_of_lt hprintable.2 (by decide)
  have hid : Char.toUInt8 ∘ Char.ofUInt8 = id := funext toUInt8_ofUInt8
  rw [utf8_eq_map hascii, String.toList_ofList, List.map_map, hid, List.map_id]

/-- No revision loses a byte, however it is shown. -/
theorem resize_toBytes (h : bs.length = 8) : Bytes.resize 8 (ofBytes bs).toBytes = bs := by
  have htrim := resize_trim bs
  rw [h] at htrim
  rw [ofBytes_eq]
  by_cases hempty : trim bs = []
  · rw [if_pos hempty, toBytes, ← hempty, htrim]
  · rw [if_neg hempty]
    split
    · rename_i hall
      rw [toBytes, utf8_ofList_map hall, htrim]
    · rw [toBytes, ← h, Bytes.toLE_ofLE, Bytes.resize_of_le (Nat.le_refl _), List.take_length]

theorem ofBytes_inj (h : bs.length = 8) (h' : bs'.length = 8) :
    ofBytes bs = ofBytes bs' ↔ bs = bs' := by
  refine ⟨fun heq => ?_, congrArg ofBytes⟩
  rw [← resize_toBytes h, heq, resize_toBytes h']

/-- A text that is shorter than the sixteen digits of a number. -/
def Fits : Revision → Prop
  | text s => s.length < 16
  | _ => True

theorem fits_ofBytes (h : bs.length < 16) : (ofBytes bs).Fits := by
  rw [ofBytes_eq]
  split
  · trivial
  · split
    · rw [Fits, String.length_ofList, List.length_map]
      exact Nat.lt_of_le_of_lt (length_trim_le bs) h
    · trivial

theorem le_length_shown_binary (n : Nat) : 16 ≤ (binary n).shown.length := by
  rw [shown, hexDigits, length_padLeft]
  exact Nat.le_max_left _ _

theorem shown_inj (h : r.Fits) (h' : r'.Fits) (hne : r ≠ empty) (hne' : r' ≠ empty) :
    r.shown = r'.shown ↔ r = r' := by
  refine ⟨fun heq => ?_, congrArg shown⟩
  cases r with
  | empty => exact absurd rfl hne
  | text s =>
    cases r' with
    | empty => exact absurd rfl hne'
    | text s' => exact congrArg text heq
    | binary n' =>
      have hlong := le_length_shown_binary n'
      rw [← heq] at hlong
      exact absurd h (Nat.not_lt.mpr hlong)
  | binary n =>
    cases r' with
    | empty => exact absurd rfl hne'
    | text s' =>
      have hlong := le_length_shown_binary n
      rw [heq] at hlong
      exact absurd h' (Nat.not_lt.mpr hlong)
    | binary n' => exact congrArg binary (hexDigits_inj.mp heq)

/-- What stands behind the number of a slot: an empty one has no tag. -/
def state (active : Bool) : Revision → String
  | empty => "Empty"
  | r => (if active then "[Active] " else "[Inactive] ") ++ r.shown

theorem state_of_ne (h : r ≠ empty) :
    r.state active = (if active then "[Active] " else "[Inactive] ") ++ r.shown := by
  cases r with
  | empty => exact absurd rfl h
  | text s => rfl
  | binary n => rfl

theorem tag_append_inj {s s' : String} :
    (if active then "[Active] " else "[Inactive] ") ++ s =
      (if active' then "[Active] " else "[Inactive] ") ++ s' ↔ active = active' ∧ s = s' := by
  cases active <;> cases active'
  case false.false | true.true => simp
  all_goals
    refine iff_of_false (fun h => ?_) (by simp)
    have hletter := congrArg (fun s => s.toList[1]?) h
    simp at hletter

theorem tag_append_ne_empty (s : String) :
    (if active then "[Active] " else "[Inactive] ") ++ s ≠ "Empty" := by
  intro h
  have hletter := congrArg (fun s => s.toList[0]?) h
  cases active <;> simp at hletter

theorem state_eq_empty_iff : r.state active = "Empty" ↔ r = empty := by
  refine ⟨fun h => ?_, fun h => h ▸ rfl⟩
  by_contra hne
  rw [state_of_ne hne] at h
  exact tag_append_ne_empty _ h

/-- A tag tells whether the slot is active, but it is told of no empty slot. -/
theorem state_inj (h : r.Fits) (h' : r'.Fits) :
    r.state active = r'.state active' ↔ r = r' ∧ (r ≠ empty → active = active') := by
  by_cases hne : r = empty
  · subst hne
    rw [eq_comm, show empty.state active = "Empty" from rfl, state_eq_empty_iff, eq_comm]
    simp
  · by_cases hne' : r' = empty
    · subst hne'
      rw [show empty.state active' = "Empty" from rfl, state_eq_empty_iff]
      exact iff_of_false hne fun h => hne h.1
    · rw [state_of_ne hne, state_of_ne hne', tag_append_inj, shown_inj h h' hne hne', and_comm]
      simp [hne]

end Revision

/-! ## Slots -/

namespace FirmwareSlots

variable {bs bs' : Bytes} {number number' : Nat} {report : Report}

/-- The numbers of the slots. -/
def numbers : List Nat := List.range' 1 7

/-- The eight bytes of a slot. -/
def revisionAt (bs : Bytes) (number : Nat) : Bytes := bs.slice (8 * number) 8

/-- The slot that the low bits of the first byte name. -/
def activeAt (bs : Bytes) : Nat := bs.numberAt 0 1 % 8

/-- The slot that is named for the next reset, above the bits of the active one. -/
def nextAt (bs : Bytes) : Nat := bs.numberAt 0 1 / 0x10 % 8

/-- There is a slot of this number, and it is not empty. -/
def Filled (bs : Bytes) (number : Nat) : Prop :=
  number ∈ numbers ∧ ∃ b ∈ revisionAt bs number, b ≠ 0

instance (bs : Bytes) (number : Nat) : Decidable (Filled bs number) :=
  inferInstanceAs (Decidable (_ ∧ _))

theorem length_revisionAt (hsize : 512 ≤ bs.length) (h : number ∈ numbers) :
    (revisionAt bs number).length = 8 := by
  obtain ⟨hlow, hhigh⟩ := List.mem_range'_1.mp h
  rw [revisionAt, Bytes.length_slice]
  omega

theorem exists_ne_zero_iff : (∃ b ∈ revisionAt bs number, b ≠ 0) ↔
    Revision.ofBytes (revisionAt bs number) ≠ .empty := by
  rw [Ne, Revision.ofBytes_eq_empty_iff]
  simp only [not_forall, exists_prop, ne_eq]

/-! ## Lines of slots -/

/-- What is said of a slot. -/
def stateAt (bs : Bytes) (number : Nat) : String :=
  (Revision.ofBytes (revisionAt bs number)).state (activeAt bs = number)

/-- What is said of a slot, read off the bytes: it is empty, or it has a tag. -/
structure ShowsSlot (bs : Bytes) (number : Nat) (state : String) : Prop where
  empty_iff : state = "Empty" ↔ ∀ b ∈ revisionAt bs number, b = 0
  active_iff : (∃ shown, state = "[Active] " ++ shown) ↔
    (∃ b ∈ revisionAt bs number, b ≠ 0) ∧ activeAt bs = number
  inactive_iff : (∃ shown, state = "[Inactive] " ++ shown) ↔
    (∃ b ∈ revisionAt bs number, b ≠ 0) ∧ activeAt bs ≠ number

theorem exists_tag_iff (bs : Bytes) (number : Nat) (active : Bool) :
    (∃ shown, stateAt bs number = (if active then "[Active] " else "[Inactive] ") ++ shown) ↔
      (∃ b ∈ revisionAt bs number, b ≠ 0) ∧ decide (activeAt bs = number) = active := by
  rw [exists_ne_zero_iff, stateAt]
  constructor
  · intro h
    obtain ⟨shown, hshown⟩ := h
    by_cases hempty : Revision.ofBytes (revisionAt bs number) = .empty
    · rw [hempty] at hshown
      exact absurd hshown.symm (Revision.tag_append_ne_empty shown)
    · rw [Revision.state_of_ne hempty, Revision.tag_append_inj] at hshown
      exact ⟨hempty, hshown.1⟩
  · intro h
    exact ⟨_, by rw [Revision.state_of_ne h.1, h.2]⟩

theorem showsSlot_stateAt (bs : Bytes) (number : Nat) :
    ShowsSlot bs number (stateAt bs number) where
  empty_iff := by
    rw [stateAt, Revision.state_eq_empty_iff, Revision.ofBytes_eq_empty_iff]
  active_iff := by
    have htag := exists_tag_iff bs number true
    rwa [decide_eq_true_iff] at htag
  inactive_iff := by
    have htag := exists_tag_iff bs number false
    rwa [decide_eq_false_iff_not] at htag

/-- The number of a slot and what is said of it. -/
def lineAt (bs : Bytes) (number : Nat) : String :=
  "Slot " ++ decimal number ++ ": " ++ stateAt bs number

theorem lineAt_inj (hsize : 512 ≤ bs.length) (hsize' : 512 ≤ bs'.length) (h : number ∈ numbers) :
    lineAt bs number = lineAt bs' number ↔
      revisionAt bs number = revisionAt bs' number ∧
        (Filled bs number → (activeAt bs = number ↔ activeAt bs' = number)) := by
  have hlength := length_revisionAt hsize h
  have hlength' := length_revisionAt hsize' h
  have hfits : ∀ bs : Bytes, bs.length = 8 → (Revision.ofBytes bs).Fits :=
    fun bs hbs => Revision.fits_ofBytes (by omega)
  rw [lineAt, lineAt, String.append_right_inj, stateAt, stateAt,
    Revision.state_inj (hfits _ hlength) (hfits _ hlength'), Revision.ofBytes_inj hlength hlength',
    decide_eq_decide, Filled, and_iff_right h, exists_ne_zero_iff]

/-! ## Reports -/

/-- The line for the next reset, if a slot is named for it. -/
def nextLines (bs : Bytes) : Report :=
  if nextAt bs = 0 then [] else ["Next reset slot: " ++ decimal (nextAt bs)]

theorem slotLine_eq (f : FirmwareSlots) (number : Nat) (r : Revision) :
    f.slotLine number r =
      "Slot " ++ decimal number ++ ": " ++ r.state (f.activeSlot = number) := by
  cases r with
  | empty => rfl
  | text s => by_cases h : f.activeSlot = number <;> simp [slotLine, Revision.state, h]
  | binary n => by_cases h : f.activeSlot = number <;> simp [slotLine, Revision.state, h]

theorem slots_fieldsOf (bs : Bytes) : (fieldsOf bs).slots =
    numbers.map fun number => (number, Revision.ofBytes (revisionAt bs number)) := rfl

theorem report_fieldsOf (bs : Bytes) : (fieldsOf bs).report =
    Report.heading "Firmware Slot Log" ++ (numbers.map (lineAt bs) ++ nextLines bs) := by
  rw [FirmwareSlots.report, slots_fieldsOf, List.map_map, List.append_assoc]
  congr 2
  apply List.map_congr_left
  intro number _
  exact slotLine_eq _ number _

theorem nextLines_inj : nextLines bs = nextLines bs' ↔ nextAt bs = nextAt bs' := by
  unfold nextLines
  by_cases h : nextAt bs = 0
  · by_cases h' : nextAt bs' = 0
    · simp [h, h']
    · simp [h, h', Ne.symm h']
  · by_cases h' : nextAt bs' = 0
    · simp [h, h']
    · simp [h, h']

/-- Two pages with the same revisions and the same slot for the next reset, which run from the
same slot as far as a slot that is not empty is concerned. -/
structure SameSlots (bs bs' : Bytes) : Prop where
  revision_eq : ∀ number ∈ numbers, revisionAt bs number = revisionAt bs' number
  next_eq : nextAt bs = nextAt bs'
  active_eq : Filled bs (activeAt bs) ∨ Filled bs' (activeAt bs') → activeAt bs = activeAt bs'

theorem filled_congr (h : revisionAt bs number = revisionAt bs' number) :
    Filled bs number ↔ Filled bs' number := by
  rw [Filled, Filled, h]

theorem report_fieldsOf_inj (hsize : 512 ≤ bs.length) (hsize' : 512 ≤ bs'.length) :
    (fieldsOf bs).report = (fieldsOf bs').report ↔ SameSlots bs bs' := by
  rw [report_fieldsOf, report_fieldsOf, List.append_right_inj]
  constructor
  · intro h
    obtain ⟨hlines, hnext⟩ := List.append_inj h (by rw [List.length_map, List.length_map])
    rw [List.map_inj_left] at hlines
    have hrevision : ∀ number ∈ numbers, revisionAt bs number = revisionAt bs' number :=
      fun number hnumber => ((lineAt_inj hsize hsize' hnumber).mp (hlines number hnumber)).1
    have hactive : ∀ number, Filled bs number → (activeAt bs = number ↔ activeAt bs' = number) :=
      fun number hfilled =>
        ((lineAt_inj hsize hsize' hfilled.1).mp (hlines number hfilled.1)).2 hfilled
    refine ⟨hrevision, nextLines_inj.mp hnext, ?_⟩
    intro hnamed
    rcases hnamed with hfilled | hfilled
    · exact ((hactive _ hfilled).mp rfl).symm
    · have hfilled' := (filled_congr (hrevision _ hfilled.1)).mpr hfilled
      exact (hactive _ hfilled').mpr rfl
  · intro h
    rw [nextLines_inj.mpr h.next_eq, List.append_left_inj, List.map_inj_left]
    intro number hnumber
    refine (lineAt_inj hsize hsize' hnumber).mpr ⟨h.revision_eq number hnumber, fun hfilled => ?_⟩
    have hfilled' := (filled_congr (h.revision_eq number hnumber)).mp hfilled
    constructor
    · intro heq
      rw [← h.active_eq (.inl (heq ▸ hfilled)), heq]
    · intro heq
      rw [h.active_eq (.inr (heq ▸ hfilled')), heq]

/-- How a report shows a page: a heading, the slots in their order, and the slot for the next
reset if one is named. -/
structure ShowsSlots (bs : Bytes) (report : Report) : Prop where
  length_eq : report.length = if nextAt bs = 0 then 9 else 10
  heading_eq : report.take 2 = Report.heading "Firmware Slot Log"
  slot : ∀ number ∈ numbers, ∃ state, ShowsSlot bs number state ∧
    report[number + 1]? = some ("Slot " ++ decimal number ++ ": " ++ state)
  next : nextAt bs ≠ 0 → report[9]? = some ("Next reset slot: " ++ decimal (nextAt bs))
  active_unique : ∀ number ∈ numbers, ∀ number' ∈ numbers, ∀ shown shown' : String,
    report[number + 1]? = some ("Slot " ++ decimal number ++ ": " ++ ("[Active] " ++ shown)) →
    report[number' + 1]? = some ("Slot " ++ decimal number' ++ ": " ++ ("[Active] " ++ shown')) →
      number = number'

theorem getElem?_report_fieldsOf (h : number ∈ numbers) :
    (fieldsOf bs).report[number + 1]? = some (lineAt bs number) := by
  obtain ⟨hlow, hhigh⟩ := List.mem_range'_1.mp h
  obtain ⟨i, rfl⟩ := Nat.exists_eq_add_of_le hlow
  have hi : i < 7 := by omega
  rw [report_fieldsOf, List.getElem?_append_right (by simp [Report.heading])]
  simp [Report.heading, List.getElem?_append_left, numbers, hi]

theorem getElem?_report_next (h : nextAt bs ≠ 0) :
    (fieldsOf bs).report[9]? = some ("Next reset slot: " ++ decimal (nextAt bs)) := by
  rw [report_fieldsOf, nextLines, if_neg h]
  rfl

theorem activeAt_of_line {shown : String} (hnumber : number ∈ numbers)
    (h : (fieldsOf bs).report[number + 1]? =
      some ("Slot " ++ decimal number ++ ": " ++ ("[Active] " ++ shown))) :
    activeAt bs = number := by
  rw [getElem?_report_fieldsOf hnumber, Option.some_inj, lineAt, String.append_right_inj] at h
  exact ((showsSlot_stateAt bs number).active_iff.mp ⟨shown, h⟩).2

theorem showsSlots_fieldsOf (bs : Bytes) : ShowsSlots bs (fieldsOf bs).report where
  length_eq := length_report rfl
  heading_eq := by
    rw [report_fieldsOf]
    exact List.take_left' rfl
  slot number hnumber :=
    ⟨stateAt bs number, showsSlot_stateAt bs number, getElem?_report_fieldsOf hnumber⟩
  next := getElem?_report_next
  active_unique number hnumber number' hnumber' _ _ h h' :=
    (activeAt_of_line hnumber h).symm.trans (activeAt_of_line hnumber' h')

end FirmwareSlots

/-! ## The decoder -/

namespace Decoder

variable {page : PageId} {bs : Bytes} {decoded : Decoded}

theorem report_of_decode_firmwareSlot (h : firmwareSlot.decode page bs = .ok decoded) :
    decoded.report = (FirmwareSlots.fieldsOf bs).report := by
  have hsize : Record.size FirmwareSlots ≤ bs.length := minimumSize_le_of_decode h
  rw [decode, Record.ofBytes?_of_le hsize] at h
  cases h
  exact congrArg FirmwareSlots.report (Record.decode_eq bs)

/-- No two revisions are shown alike, a report shows each slot as it is, and two reports are
alike exactly if they show the same slots. -/
theorem firmwareSlot_faithful :
    (∀ field field' : Bytes, field.length = 8 → field'.length = 8 →
      (Revision.ofBytes field = Revision.ofBytes field' ↔ field = field')) ∧
    (∀ (page : PageId) (bs : Bytes), 512 ≤ bs.length → ∃ decoded,
      firmwareSlot.decode page bs = .ok decoded ∧ FirmwareSlots.ShowsSlots bs decoded.report) ∧
    firmwareSlot.ShowsExactly FirmwareSlots.SameSlots := by
  refine ⟨fun field field' => Revision.ofBytes_inj, ?_, ?_⟩
  · intro page bs hsize
    obtain ⟨decoded, h⟩ := @decode_of_le firmwareSlot bs hsize page
    refine ⟨decoded, h, ?_⟩
    rw [report_of_decode_firmwareSlot h]
    exact FirmwareSlots.showsSlots_fieldsOf bs
  · intro page page' bs bs' decoded decoded' h h'
    rw [text_eq_iff_of_decode h h', report_of_decode_firmwareSlot h,
      report_of_decode_firmwareSlot h', FirmwareSlots.report_fieldsOf_inj
        (minimumSize_le_of_decode h) (minimumSize_le_of_decode h')]

/-- A drive that calls a revision empty, or ends it in spaces, is not misread. The slot that runs
is not told where it is an empty one. -/
theorem firmwareSlot_faithful_imitated :
    let word : Bytes := [0x45, 0x6d, 0x70, 0x74, 0x79, 0x00, 0x00, 0x00]
    let spaced : Bytes := [0x45, 0x6d, 0x70, 0x74, 0x79, 0x20, 0x20, 0x20]
    let zeros : Bytes := List.replicate 8 0
    let slots (info : UInt8) (field : Bytes) : Bytes :=
      info :: List.replicate 7 0 ++ field ++ List.replicate 496 0
    Revision.ofBytes word ≠ Revision.ofBytes spaced ∧
    (∃ decoded decoded', firmwareSlot.decode 0x03 (slots 0x21 word) = .ok decoded ∧
      firmwareSlot.decode 0x03 (slots 0x21 zeros) = .ok decoded' ∧
      decoded.report.text ≠ decoded'.report.text) ∧
    ∃ decoded decoded', firmwareSlot.decode 0x03 (slots 0x25 word) = .ok decoded ∧
      firmwareSlot.decode 0x03 (slots 0x26 word) = .ok decoded' ∧
      decoded.report.text = decoded'.report.text := by
  intro word spaced zeros slots
  obtain ⟨hrevisions, hslots, hreports⟩ := firmwareSlot_faithful
  refine ⟨?_, ?_, ?_⟩
  · rw [Ne, hrevisions word spaced rfl rfl]
    decide
  · obtain ⟨decoded, h, -⟩ := hslots 0x03 (slots 0x21 word) (by decide +kernel)
    obtain ⟨decoded', h', -⟩ := hslots 0x03 (slots 0x21 zeros) (by decide +kernel)
    refine ⟨decoded, decoded', h, h', ?_⟩
    rw [Ne, hreports h h']
    intro hsame
    have hfirst := hsame.revision_eq 1 (by decide)
    exact absurd hfirst (by decide +kernel)
  · obtain ⟨decoded, h, -⟩ := hslots 0x03 (slots 0x25 word) (by decide +kernel)
    obtain ⟨decoded', h', -⟩ := hslots 0x03 (slots 0x26 word) (by decide +kernel)
    refine ⟨decoded, decoded', h, h', (hreports h h').mpr ⟨?_, ?_, ?_⟩⟩
    · decide +kernel
    · decide +kernel
    · intro hnamed
      exact absurd hnamed (by decide +kernel)

end Decoder

end DriveLog
