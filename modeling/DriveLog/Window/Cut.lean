import Mathlib.Data.List.Infix
import DriveLog.Window.Walk

/-! Windows cut short. A reader that never asks how many bytes are left reads of a window
that is cut short what it reads of the whole one, unless it is refused. A walk with such a
reader finds in the cut window the first of the items that it finds in the whole one. -/

namespace DriveLog

/-- The window stands where the other one does, and ends with it or before it. -/
structure Window.CutOf (w whole : Window) : Prop where
  start_eq : w.start = whole.start
  offset_eq : w.offset = whole.offset
  unread_prefix : w.unread <+: whole.unread

namespace Window.CutOf

variable {w whole : Window} {n : Nat}

theorem ofBytes {front bs : Bytes} (h : front <+: bs) :
    (Window.ofBytes front).CutOf (Window.ofBytes bs) := ⟨rfl, rfl, h⟩

theorem position_eq (h : w.CutOf whole) : w.position = whole.position := by
  rw [position, position, h.start_eq, h.offset_eq]

theorem remaining_le (h : w.CutOf whole) : w.remaining ≤ whole.remaining := by
  rw [w.remaining_eq, whole.remaining_eq]
  exact h.unread_prefix.length_le

theorem advance (h : w.CutOf whole) (n : Nat) : (w.advance n).CutOf (whole.advance n) := by
  refine ⟨h.start_eq, ?_, List.IsPrefix.drop h.unread_prefix n⟩
  rw [offset_advance, offset_advance, h.offset_eq]

theorem take_unread (h : w.CutOf whole) (hn : n ≤ w.remaining) :
    w.unread.take n = whole.unread.take n := by
  obtain ⟨rest, hrest⟩ := h.unread_prefix
  rw [w.remaining_eq] at hn
  rw [← hrest, List.take_append_of_le_length hn]

end Window.CutOf

namespace Reader

variable {α β : Type}

/-- What is read of a cut window is read of the whole one. -/
def Steady (x : Reader α) : Prop :=
  ∀ ⦃w whole v : Window⦄ ⦃a : α⦄, w.CutOf whole → x w = .ok (a, v) →
    ∃ v', x whole = .ok (a, v') ∧ v.CutOf v'

theorem steady_pure (a : α) : Steady (pure a) := by
  intro w whole v b hcut h
  obtain ⟨rfl, rfl⟩ := pure_eq_ok_iff.mp h
  exact ⟨whole, rfl, hcut⟩

theorem steady_position : Steady position := by
  intro w whole v p hcut h
  obtain ⟨rfl, rfl⟩ := position_eq_ok_iff.mp h
  refine ⟨whole, ?_, hcut⟩
  rw [run_position, hcut.position_eq]

theorem steady_take (n : Nat) : Steady (take n) := by
  intro w whole v bs hcut h
  obtain ⟨hn, rfl, rfl⟩ := take_eq_ok_iff.mp h
  refine ⟨whole.advance n, ?_, hcut.advance n⟩
  rw [take_of_le (Nat.le_trans hn hcut.remaining_le), hcut.take_unread hn]

theorem Steady.bind {x : Reader α} {f : α → Reader β} (hx : Steady x)
    (hf : ∀ a, Steady (f a)) : Steady (x >>= f) := by
  intro w whole v b hcut h
  obtain ⟨a, u, hread, hrest⟩ := bind_eq_ok_iff.mp h
  obtain ⟨u', hread', hcut'⟩ := hx hcut hread
  rw [bind_of_ok hread']
  exact hf a hcut' hrest

theorem Steady.map {x : Reader α} (hx : Steady x) (f : α → β) : Steady (f <$> x) := by
  intro w whole v b hcut h
  obtain ⟨a, hread, rfl⟩ := map_eq_ok_iff.mp h
  obtain ⟨v', hread', hcut'⟩ := hx hcut hread
  exact ⟨v', map_eq_ok_iff.mpr ⟨a, hread', rfl⟩, hcut'⟩

theorem steady_skip (n : Nat) : Steady (skip n) :=
  (steady_take n).bind fun _ => steady_pure ()

theorem steady_number (width : Nat) : Steady (number width) :=
  (steady_take width).map Bytes.ofLE

end Reader

namespace ItemReader

variable {α : Type} {item : ItemReader α} {w whole v : Window} {as : List α}

theorem Reads.of_cut (hitem : item.read.Steady) (h : item.Reads w as v)
    (hcut : w.CutOf whole) : ∃ v', item.Reads whole as v' := by
  induction h generalizing whole with
  | nil => exact ⟨whole, .nil⟩
  | cons hread _ ih =>
    obtain ⟨u', hread', hcut'⟩ := hitem hcut hread
    obtain ⟨v', hreads⟩ := ih hcut'
    exact ⟨v', .cons hread' hreads⟩

theorem items_walk_of_cut (hitem : item.read.Steady) (hcut : w.CutOf whole) :
    (item.walk w).items <+: (item.walk whole).items := by
  obtain ⟨v', hreads⟩ := (item.walk_reads w).of_cut hitem hcut
  rw [walk_of_reads hreads]
  exact List.prefix_append _ _

end ItemReader

end DriveLog
