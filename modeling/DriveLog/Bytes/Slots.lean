import DriveLog.Bytes.LittleEndian

/-! Cutting a byte string: a slice out of it, consecutive pieces of one size, slots, of
which a partial one at the end is none, and an exact size, where zeros fill what is
missing. -/

namespace DriveLog.Bytes

/-- The `count` bytes from `offset` on, as far as there are as many. -/
def slice (offset count : Nat) (bs : Bytes) : Bytes := (bs.drop offset).take count

/-- The little-endian number of the `width` bytes from `offset` on. -/
def numberAt (offset width : Nat) (bs : Bytes) : Nat := ofLE (slice offset width bs)

/-- The first `count` pieces of `size` bytes, as far as there are bytes. They are cut out
of an array, where a piece is reached without walking over those before it. -/
def pieces (size count : Nat) (bs : Bytes) : List Bytes :=
  let cells := bs.toArray
  (List.range count).map fun i => (cells.extract (size * i) (size * i + size)).toList

/-- The whole consecutive slots of `size` bytes. -/
def slots (size : Nat) (bs : Bytes) : List Bytes := pieces size (bs.length / size) bs

/-- Cut or filled with zeros to exactly `size` bytes. -/
def resize (size : Nat) (bs : Bytes) : Bytes :=
  bs.take size ++ List.replicate (size - bs.length) 0

@[simp] theorem length_slice (offset count : Nat) (bs : Bytes) :
    (slice offset count bs).length = min count (bs.length - offset) := by
  simp [slice]

theorem slice_length (bs : Bytes) : slice 0 bs.length bs = bs := by
  simp [slice]

theorem drop_slice (offset count n : Nat) (bs : Bytes) :
    (slice offset count bs).drop n = slice (offset + n) (count - n) bs := by
  simp [slice, List.drop_take]

theorem take_slice {offset count n : Nat} (h : n ≤ count) (bs : Bytes) :
    (slice offset count bs).take n = slice offset n bs := by
  simp [slice, List.take_take, Nat.min_eq_left h]

/-- A slice is known by its own bytes. -/
theorem slice_congr {offset count : Nat} {bs bs' : Bytes}
    (h : ∀ k, offset ≤ k → k < offset + count → bs[k]? = bs'[k]?) :
    slice offset count bs = slice offset count bs' := by
  apply List.ext_getElem?
  intro i
  simp only [slice, List.getElem?_take, List.getElem?_drop]
  split
  · exact h (offset + i) (by omega) (by omega)
  · rfl

theorem numberAt_congr {offset width : Nat} {bs bs' : Bytes}
    (h : ∀ k, offset ≤ k → k < offset + width → bs[k]? = bs'[k]?) :
    numberAt offset width bs = numberAt offset width bs' := by
  rw [numberAt, numberAt, slice_congr h]

theorem numberAt_one_congr {offset : Nat} {bs bs' : Bytes} (h : bs[offset]? = bs'[offset]?) :
    numberAt offset 1 bs = numberAt offset 1 bs' := by
  apply numberAt_congr
  intro k hle hlt
  obtain rfl : k = offset := by omega
  exact h

theorem slice_take {offset count n : Nat} (h : offset + count ≤ n) (bs : Bytes) :
    slice offset count (bs.take n) = slice offset count bs :=
  slice_congr fun _ _ hlt => List.getElem?_take_of_lt (by omega)

theorem numberAt_take {offset width n : Nat} (h : offset + width ≤ n) (bs : Bytes) :
    numberAt offset width (bs.take n) = numberAt offset width bs :=
  numberAt_congr fun _ _ hlt => List.getElem?_take_of_lt (by omega)

theorem slice_append_right (front bs : Bytes) (offset count : Nat) :
    slice (front.length + offset) count (front ++ bs) = slice offset count bs := by
  rw [slice, List.drop_append, List.drop_eq_nil_of_le (Nat.le_add_right _ _),
    List.nil_append, Nat.add_sub_cancel_left, slice]

theorem numberAt_append_right (front bs : Bytes) (offset width : Nat) :
    numberAt (front.length + offset) width (front ++ bs) = numberAt offset width bs := by
  rw [numberAt, slice_append_right, numberAt]

theorem pieces_eq (size count : Nat) (bs : Bytes) :
    pieces size count bs =
      (List.range count).map fun i => (bs.drop (size * i)).take size := by
  simp [pieces, List.extract_eq_take_drop]

theorem pieces_zero (size : Nat) (bs : Bytes) : pieces size 0 bs = [] := by
  simp [pieces]

theorem pieces_succ (size count : Nat) (bs : Bytes) :
    pieces size (count + 1) bs = bs.take size :: pieces size count (bs.drop size) := by
  simp [pieces_eq, List.range_succ_eq_map, Function.comp_def, Nat.mul_succ, Nat.add_comm]

/-- A piece ends where the last one ends or before. -/
theorem piece_le {count i : Nat} (hi : i ∈ List.range count) (size : Nat) :
    size * i + size ≤ size * count := by
  rw [← Nat.mul_succ]
  exact Nat.mul_le_mul_left size (List.mem_range.mp hi)

/-- The first pieces lie in the bytes up to their end. -/
theorem pieces_take {size count n : Nat} (h : size * count ≤ n) (bs : Bytes) :
    pieces size count (bs.take n) = pieces size count bs := by
  rw [pieces_eq, pieces_eq]
  apply List.map_congr_left
  intro i hi
  have hfit : size * i + size ≤ n := Nat.le_trans (piece_le hi size) h
  rw [List.drop_take, List.take_take, Nat.min_eq_left (by omega)]

theorem flatten_pieces (size count : Nat) (bs : Bytes) :
    (pieces size count bs).flatten = bs.take (size * count) := by
  induction count generalizing bs with
  | zero => simp [pieces_zero]
  | succ count ih =>
    rw [pieces_succ, List.flatten_cons, ih, Nat.mul_succ, Nat.add_comm, List.take_add]

theorem take_pieces (size count n : Nat) (bs : Bytes) :
    (pieces size count bs).take n = pieces size (min n count) bs := by
  rw [pieces_eq, pieces_eq, ← List.map_take, List.take_range]

@[simp] theorem length_pieces (size count : Nat) (bs : Bytes) :
    (pieces size count bs).length = count := by
  simp [pieces]

@[simp] theorem length_slots (size : Nat) (bs : Bytes) :
    (slots size bs).length = bs.length / size := by
  simp [slots]

theorem getElem_slots {size : Nat} {bs : Bytes} {i : Nat} (h : i < (slots size bs).length) :
    (slots size bs)[i] = (bs.drop (size * i)).take size := by
  simp [slots, pieces_eq]

theorem getElem?_slots {size : Nat} {bs : Bytes} {i : Nat} (h : i < bs.length / size) :
    (slots size bs)[i]? = some ((bs.drop (size * i)).take size) := by
  rw [List.getElem?_eq_getElem (by simpa using h), getElem_slots]

/-- Cutting a byte string short takes slots off the end. -/
theorem slots_take (size n : Nat) (bs : Bytes) :
    slots size (bs.take n) = (slots size bs).take (n / size) := by
  have hcount : (bs.take n).length / size = min (n / size) (bs.length / size) := by
    rw [List.length_take]
    rcases Nat.le_total n bs.length with hle | hle
    · rw [Nat.min_eq_left hle, Nat.min_eq_left (Nat.div_le_div_right hle)]
    · rw [Nat.min_eq_right hle, Nat.min_eq_right (Nat.div_le_div_right hle)]
  have hfit : size * min (n / size) (bs.length / size) ≤ n :=
    Nat.le_trans (Nat.mul_le_mul_left size (Nat.min_le_left _ _)) (Nat.mul_div_le n size)
  rw [slots, slots, take_pieces, hcount, pieces_take hfit]

@[simp] theorem length_resize (size : Nat) (bs : Bytes) : (resize size bs).length = size := by
  simp only [resize, List.length_append, List.length_take, List.length_replicate]
  omega

/-- No zeros are needed where there are bytes enough. -/
theorem resize_of_le {size : Nat} {bs : Bytes} (h : size ≤ bs.length) :
    resize size bs = bs.take size := by
  rw [resize, Nat.sub_eq_zero_of_le h, List.replicate_zero, List.append_nil]

/-- A byte within the size is that of the byte string, or zero behind its end. -/
theorem getElem?_resize {size i : Nat} (h : i < size) (bs : Bytes) :
    (resize size bs)[i]? = some (bs[i]?.getD 0) := by
  rw [resize, List.getElem?_append, List.length_take, List.getElem?_take_of_lt h]
  rcases Nat.lt_or_ge i bs.length with hlt | hge
  · rw [if_pos (Nat.lt_min.mpr ⟨h, hlt⟩), List.getElem?_eq_getElem hlt]
    rfl
  · have hzero : i - min size bs.length < size - bs.length := by omega
    rw [if_neg (by omega), List.getElem?_replicate_of_lt hzero, List.getElem?_eq_none hge]
    rfl

/-- The bytes of a byte string up to a size, and zeros where it has none. -/
structure IsResized (size : Nat) (bs resized : Bytes) : Prop where
  length_eq : resized.length = size
  getElem?_eq : ∀ i < size, resized[i]? = some (bs[i]?.getD 0)

theorem isResized_resize (size : Nat) (bs : Bytes) : IsResized size bs (resize size bs) :=
  ⟨length_resize size bs, fun _ h => getElem?_resize h bs⟩

theorem IsResized.eq {size : Nat} {bs resized : Bytes} (h : IsResized size bs resized) :
    resized = resize size bs := by
  apply List.ext_getElem?
  intro i
  rcases Nat.lt_or_ge i size with hlt | hge
  · rw [h.getElem?_eq i hlt, getElem?_resize hlt]
  · rw [List.getElem?_eq_none (h.length_eq ▸ hge),
      List.getElem?_eq_none ((length_resize size bs).symm ▸ hge)]

/-- The zeros that a byte string ends in can be cut off and filled in again. -/
theorem dropWhile_append_zeros (bs : Bytes) :
    (bs.reverse.dropWhile (· = 0)).reverse ++
      List.replicate (bs.length - (bs.reverse.dropWhile (· = 0)).reverse.length) 0 = bs := by
  have hsplit : (bs.reverse.dropWhile (· = 0)).reverse ++ (bs.reverse.takeWhile (· = 0)).reverse =
      bs := by
    rw [← List.reverse_append, List.takeWhile_append_dropWhile, List.reverse_reverse]
  have hlength : (bs.reverse.takeWhile (· = 0)).reverse.length =
      bs.length - (bs.reverse.dropWhile (· = 0)).reverse.length := by
    have hsum := congrArg List.length hsplit
    rw [List.length_append] at hsum
    omega
  have hzeros : (bs.reverse.takeWhile (· = 0)).reverse =
      List.replicate (bs.length - (bs.reverse.dropWhile (· = 0)).reverse.length) 0 := by
    rw [List.eq_replicate_iff]
    refine ⟨hlength, fun b hb => ?_⟩
    have hall := List.all_eq_true.mp List.all_takeWhile b (List.mem_reverse.mp hb)
    exact of_decide_eq_true hall
  rw [← hzeros, hsplit]

/-- Zeros are filled in behind, so a smaller size is the front of a larger one. -/
theorem take_resize {m n : Nat} (h : m ≤ n) (bs : Bytes) :
    (resize n bs).take m = resize m bs := by
  have hzeros : min (m - min n bs.length) (n - bs.length) = m - bs.length := by omega
  rw [resize, resize, List.take_append, List.take_take, Nat.min_eq_left h, List.length_take,
    List.take_replicate, hzeros]

end DriveLog.Bytes
