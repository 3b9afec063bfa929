import DriveLog.Bytes.Slots
import DriveLog.Window.Layout
import DriveLog.Window.Walk

/-! Records in a row up to a sentinel. Where a series goes on only while a whole record is
left, it is never refused: it lists the records of the slots before the first that is not to
be kept, and that slot alone says what is wrong with the series. -/

namespace DriveLog.Record

variable {α : Type} [Record α]

theorem read_eq_ok_iff {w w' : Window} {a : α} :
    read w = .ok (a, w') ↔
      size α ≤ w.remaining ∧ a = decode w.unread ∧ w' = w.advance (size α) := by
  by_cases h : size α ≤ w.remaining
  · simp [read_of_le h, h, eq_comm]
  · simp [read_of_lt (Nat.not_le.mp h), h]

/-- Records that take any bytes at all can be read one after another. -/
def reader (hsize : 0 < size α) : ItemReader α where
  read := read
  remaining_lt h := by
    obtain ⟨hle, _, rfl⟩ := read_eq_ok_iff.mp h
    rw [Window.remaining_advance]
    omega

/-- `count` tells how many slots a series may still look at. -/
structure Counts (α : Type) [Record α] (more : Window → Bool) (count : Window → Nat) :
    Prop where
  more_iff : ∀ w, more w = true ↔ 0 < count w
  fits : ∀ w, 0 < count w → size α ≤ w.remaining
  advance : ∀ w, 0 < count w → count (w.advance (size α)) = count w - 1

variable {β ε : Type} {more : Window → Bool} {count : Window → Nat}

/-- The records of the slots that a series may still look at. -/
def ahead (count : Window → Nat) (w : Window) : List α :=
  (Bytes.pieces (size α) (count w) w.unread).map decode

theorem ahead_of_zero {w : Window} (h : count w = 0) : (ahead count w : List α) = [] := by
  rw [ahead, h, Bytes.pieces_zero, List.map_nil]

theorem ahead_of_pos (hc : Counts α more count) {w : Window} (h : 0 < count w) :
    ahead count w = (decode w.unread : α) :: ahead count (w.advance (size α)) := by
  obtain ⟨n, hn⟩ := Nat.exists_eq_succ_of_ne_zero (Nat.ne_of_gt h)
  rw [ahead, ahead, hc.advance w h, hn, Bytes.pieces_succ, List.map_cons,
    decode_take (Nat.le_refl _), Window.unread_advance]
  rfl

/-- A series lists the records up to the first that is not kept, and reads that one too. -/
theorem series_eq (hsize : 0 < size α) (hc : Counts α more count) (rule : SeriesRule α β ε)
    (found : List β) (w : Window) :
    (reader hsize).series more rule found w =
      { items := found.reverse ++ ((ahead count w).takeWhile rule.keep).map rule.value
        rest := w.advance
          (size α * min (((ahead count w).takeWhile rule.keep).length + 1) (count w))
        fault := ((ahead count w).dropWhile rule.keep).head?.bind rule.faultOf } := by
  induction hn : count w generalizing found w with
  | zero =>
    have hmore : more w = false := by
      rw [Bool.eq_false_iff]
      intro h
      have := (hc.more_iff w).mp h
      omega
    rw [ItemReader.series_of_not_more hmore, ahead_of_zero hn]
    simp
  | succ n ih =>
    have hpos : 0 < count w := by omega
    have hmore : more w = true := (hc.more_iff w).mpr hpos
    have hread : (reader hsize).read w = .ok ((decode w.unread : α), w.advance (size α)) :=
      read_of_le (hc.fits w hpos)
    have hnext : count (w.advance (size α)) = n := by rw [hc.advance w hpos, hn]; rfl
    rw [ahead_of_pos hc hpos]
    cases hk : rule.keep (decode w.unread) with
    | true =>
      rw [ItemReader.series_of_keep hmore hread hk, ih _ _ hnext, Window.advance_advance,
        List.takeWhile_cons_of_pos hk, List.dropWhile_cons_of_pos hk, List.length_cons,
        Nat.add_min_add_right, Nat.mul_succ, Nat.add_comm (size α)]
      simp
    | false =>
      have hkeep : ¬ rule.keep (decode w.unread) = true := by rw [hk]; exact Bool.false_ne_true
      rw [ItemReader.series_of_not_keep hmore hread hk, List.takeWhile_cons_of_neg hkeep,
        List.dropWhile_cons_of_neg hkeep, List.length_nil, Nat.min_eq_left (by omega), Nat.mul_one]
      simp

/-- A series that goes by whole records is not refused. -/
theorem series?_eq (hsize : 0 < size α) (hc : Counts α more count) (keep : α → Bool)
    (w : Window) :
    (reader hsize).series? more keep w =
      .ok ((ahead count w).takeWhile keep, w.advance
        (size α * min (((ahead count w).takeWhile keep).length + 1) (count w))) := by
  have hfault : ((ahead count w : List α).dropWhile keep).head?.bind
      (fun _ => (none : Option Shortfall)) = none := by
    cases ((ahead count w : List α).dropWhile keep).head? <;> rfl
  rw [ItemReader.series?, series_eq hsize hc]
  simp only [hfault, List.reverse_nil, List.nil_append, List.map_id]

/-! ## Whole slots -/

/-- Whether a whole record is left. -/
def hasSlot (α : Type) [Record α] (w : Window) : Bool := size α ≤ w.remaining

/-- How many whole records are left. -/
def slotsLeft (α : Type) [Record α] (w : Window) : Nat := w.remaining / size α

theorem counts_slotsLeft (hsize : 0 < size α) : Counts α (hasSlot α) (slotsLeft α) where
  more_iff w := by simp [hasSlot, slotsLeft, Nat.div_pos_iff, hsize]
  fits w h := (Nat.div_pos_iff.mp h).2
  advance w _ := by
    simpa [slotsLeft] using Nat.sub_mul_div w.remaining (size α) 1

/-- The records of the whole slots of a byte string. -/
def slots (α : Type) [Record α] (bs : Bytes) : List α := (Bytes.slots (size α) bs).map decode

theorem ahead_slotsLeft (w : Window) : ahead (slotsLeft α) w = slots α w.unread := by
  rw [ahead, slotsLeft, w.remaining_eq, slots, Bytes.slots]

end DriveLog.Record
