import DriveLog.Bytes.Slots
import DriveLog.Window.Basic

/-! Where a window stands on its page: it reads an interval of the page, which moving does
not change. -/

namespace DriveLog

/-- The bytes of a page from `lo` on and before `hi`. -/
structure Interval where
  lo : Nat
  hi : Nat
deriving DecidableEq, Repr

/-- How a window stands in the interval it owns. -/
structure Window.Owns (page : Bytes) (w : Window) (own : Interval) : Prop where
  lo_le_position : own.lo ≤ w.position
  position_le_hi : w.position ≤ own.hi
  hi_le_length : own.hi ≤ page.length
  offset_eq : w.offset = w.position - own.lo
  remaining_eq : w.remaining = own.hi - w.position
  unread_eq : w.unread = page.slice w.position (own.hi - w.position)

namespace Window.Owns

variable {page : Bytes} {w : Window} {own : Interval} {n : Nat}

theorem ofBytes (page : Bytes) : (Window.ofBytes page).Owns page ⟨0, page.length⟩ where
  lo_le_position := Nat.le_refl _
  position_le_hi := Nat.zero_le _
  hi_le_length := Nat.le_refl _
  offset_eq := rfl
  remaining_eq := rfl
  unread_eq := (Bytes.slice_length page).symm

theorem advance (h : w.Owns page own) (hn : n ≤ w.remaining) :
    (w.advance n).Owns page own := by
  have hle := h.lo_le_position
  have hhi := h.position_le_hi
  have hrem := h.remaining_eq
  have hoff := h.offset_eq
  refine ⟨?_, ?_, h.hi_le_length, ?_, ?_, ?_⟩
  · rw [position_advance]; omega
  · rw [position_advance]; omega
  · rw [offset_advance, position_advance]; omega
  · rw [remaining_advance, position_advance]; omega
  · rw [unread_advance, position_advance, h.unread_eq, Bytes.drop_slice, Nat.sub_sub]

/-- The next bytes of a window are those of the page at its position. -/
theorem take_unread (h : w.Owns page own) (hn : n ≤ w.remaining) :
    w.unread.take n = page.slice w.position n := by
  rw [h.unread_eq, Bytes.take_slice (h.remaining_eq ▸ hn)]

theorem ofLE_take_unread (h : w.Owns page own) (hn : n ≤ w.remaining) :
    Bytes.ofLE (w.unread.take n) = page.numberAt w.position n := by
  rw [h.take_unread hn, Bytes.numberAt]

/-- A window is known by the interval it owns, its position and what it has not read. -/
theorem eq_of_unread_eq {page' : Bytes} {w' : Window} (h : w.Owns page own)
    (h' : w'.Owns page' own) (hposition : w.position = w'.position)
    (hunread : w.unread = w'.unread) : w = w' := by
  have hoffset : w.offset = w'.offset := by rw [h.offset_eq, h'.offset_eq, hposition]
  have hstart : w.start = w'.start := by
    simp only [position] at hposition
    omega
  obtain ⟨start, offset, unread, remaining, hremaining⟩ := w
  obtain ⟨start', offset', unread', remaining', hremaining'⟩ := w'
  simp only at hoffset hstart hunread
  subst hoffset hstart hunread hremaining hremaining'
  rfl

theorem cut (h : w.Owns page own) (hn : n ≤ w.remaining) :
    Owns page { start := w.position, offset := 0, unread := w.unread.take n }
      ⟨w.position, w.position + n⟩ := by
  have hhi := h.position_le_hi
  have hpage := h.hi_le_length
  have hrem := h.remaining_eq
  have hlen : (w.unread.take n).length = n := by
    rw [List.length_take, ← w.remaining_eq, Nat.min_eq_left hn]
  refine ⟨Nat.le_refl _, Nat.le_add_right _ _, ?_, ?_, ?_, ?_⟩
  · simp only; omega
  · simp [position]
  · simp [position, hlen]
  · simp only [position, Nat.add_zero, Nat.add_sub_cancel_left]
    exact h.take_unread hn

end Window.Owns

end DriveLog
