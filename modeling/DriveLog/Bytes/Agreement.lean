import DriveLog.Bytes.Slots

/-! Agreeing byte strings. Two byte strings agree over a range exactly if the numbers that
are read from it, side by side, are the same; so what is known of the numbers is known of
the bytes. A number of which only some bits are known is compared bit by bit. -/

namespace DriveLog.Bytes

variable {bs bs' : Bytes} {lo mid hi offset width n : Nat}

/-! ## Ranges -/

/-- Both have the same bytes from `lo` up to `hi`, or end at the same place before. -/
def AgreeOn (lo hi : Nat) (bs bs' : Bytes) : Prop := ∀ k, lo ≤ k → k < hi → bs[k]? = bs'[k]?

instance : Decidable (AgreeOn lo hi bs bs') :=
  decidable_of_iff (∀ k < hi, lo ≤ k → bs[k]? = bs'[k]?)
    ⟨fun h k hle hlt => h k hlt hle, fun h k hlt hle => h k hle hlt⟩

theorem agreeOn_self : AgreeOn lo lo bs bs' :=
  fun _ hle hlt => absurd hlt (Nat.not_lt.mpr hle)

theorem agreeOn_split (hlo : lo ≤ mid) (hhi : mid ≤ hi) :
    AgreeOn lo hi bs bs' ↔ AgreeOn lo mid bs bs' ∧ AgreeOn mid hi bs bs' := by
  constructor
  · intro h
    exact ⟨fun k hle hlt => h k hle (by omega), fun k hle hlt => h k (by omega) hlt⟩
  · rintro ⟨hlow, hhigh⟩ k hle hlt
    rcases Nat.lt_or_ge k mid with hmid | hmid
    · exact hlow k hle hmid
    · exact hhigh k hmid hlt

/-! ## Numbers -/

theorem numberAt_eq_iff (h : offset + width ≤ bs.length) (h' : offset + width ≤ bs'.length) :
    bs.numberAt offset width = bs'.numberAt offset width ↔
      AgreeOn offset (offset + width) bs bs' := by
  refine ⟨fun heq k hle hlt => ?_, numberAt_congr⟩
  have hlength : (slice offset width bs).length = (slice offset width bs').length := by
    rw [length_slice, length_slice]
    omega
  have hslice := congrArg (fun s => s[k - offset]?) (eq_of_ofLE_eq hlength heq)
  have hin : k - offset < width := by omega
  simp only [slice, List.getElem?_take_of_lt hin, List.getElem?_drop] at hslice
  rwa [Nat.add_sub_cancel' hle] at hslice

/-- The numbers of these widths that stand side by side from an offset on. -/
def numbersAt (offset : Nat) : List Nat → Bytes → List Nat
  | [], _ => []
  | width :: widths, bs => bs.numberAt offset width :: numbersAt (offset + width) widths bs

/-- Where the last of these numbers ends. -/
def numbersEnd (offset : Nat) : List Nat → Nat
  | [] => offset
  | width :: widths => numbersEnd (offset + width) widths

theorem le_numbersEnd (offset : Nat) (widths : List Nat) : offset ≤ numbersEnd offset widths := by
  induction widths generalizing offset with
  | nil => exact Nat.le_refl offset
  | cons width widths ih => exact Nat.le_trans (Nat.le_add_right offset width) (ih _)

theorem numbersAt_eq_iff {widths : List Nat} (hend : numbersEnd offset widths = hi)
    (h : hi ≤ bs.length) (h' : hi ≤ bs'.length) :
    numbersAt offset widths bs = numbersAt offset widths bs' ↔ AgreeOn offset hi bs bs' := by
  induction widths generalizing offset with
  | nil =>
    obtain rfl : offset = hi := hend
    exact iff_of_true rfl agreeOn_self
  | cons width widths ih =>
    have hwidth : offset + width ≤ hi := by
      rw [← hend]
      exact le_numbersEnd (offset + width) widths
    rw [numbersAt, numbersAt, List.cons.injEq, ih hend, numberAt_eq_iff (by omega) (by omega),
      agreeOn_split (Nat.le_add_right offset width) hwidth]

theorem numberAt_lt (offset width : Nat) (bs : Bytes) :
    bs.numberAt offset width < Nat.pow 256 width := by
  have hlength : (slice offset width bs).length ≤ width := by
    rw [length_slice]
    exact Nat.min_le_left _ _
  exact Nat.lt_of_lt_of_le (ofLE_lt _) (Nat.pow_le_pow_right (by decide) hlength)

/-- The low bytes of a number are a number of their own. -/
theorem numberAt_mod (h : n ≤ width) (hfit : offset + width ≤ bs.length) :
    bs.numberAt offset width % Nat.pow 256 n = bs.numberAt offset n := by
  have hlength : n ≤ (slice offset width bs).length := by
    rw [length_slice]
    omega
  have hlow : numberAt offset n bs < Nat.pow 256 n := numberAt_lt offset n bs
  rw [numberAt, ofLE_take_add_drop hlength, take_slice h, Nat.pow_eq, Nat.add_mul_mod_self_left]
  exact Nat.mod_eq_of_lt hlow

/-- The high bytes of a number are a number of their own. -/
theorem numberAt_div (h : n ≤ width) (hfit : offset + width ≤ bs.length) :
    bs.numberAt offset width / Nat.pow 256 n = bs.numberAt (offset + n) (width - n) := by
  have hlength : n ≤ (slice offset width bs).length := by
    rw [length_slice]
    omega
  have hlow : numberAt offset n bs < Nat.pow 256 n := numberAt_lt offset n bs
  rw [numberAt, ofLE_take_add_drop hlength, take_slice h, drop_slice, Nat.pow_eq,
    Nat.add_mul_div_left _ _ (Nat.pow_pos (by decide))]
  show numberAt offset n bs / Nat.pow 256 n + numberAt (offset + n) (width - n) bs = _
  rw [Nat.div_eq_of_lt hlow, Nat.zero_add]

/-- Bytes out of the middle of a number are a number of their own. -/
theorem numberAt_div_mod {start count : Nat} (h : start + count ≤ width)
    (hfit : offset + width ≤ bs.length) :
    bs.numberAt offset width / Nat.pow 256 start % Nat.pow 256 count =
      bs.numberAt (offset + start) count := by
  rw [numberAt_div (by omega) hfit, numberAt_mod (by omega) (by omega)]

theorem numberAt_drop (start offset width : Nat) (bs : Bytes) :
    numberAt offset width (bs.drop start) = bs.numberAt (start + offset) width := by
  rw [numberAt, numberAt, slice, slice, List.drop_drop]

/-- A number inside a slice stands on the page as far behind the slice's start. -/
theorem numberAt_slice {start count : Nat} (h : offset + width ≤ count) (bs : Bytes) :
    numberAt offset width (slice start count bs) = bs.numberAt (start + offset) width := by
  rw [slice, numberAt_take h, numberAt_drop]

/-! ## Bits -/

/-- A field of a word is known by its bits. -/
theorem field_eq_iff {word word' first count : Nat} :
    word / Nat.pow 2 first % Nat.pow 2 count = word' / Nat.pow 2 first % Nat.pow 2 count ↔
      ∀ bit, first ≤ bit → bit < first + count → word.testBit bit = word'.testBit bit := by
  rw [Nat.pow_eq, Nat.pow_eq]
  constructor
  · intro h bit hle hlt
    have hbit := congrArg (Nat.testBit · (bit - first)) h
    have hin : bit - first < count := by omega
    simpa [Nat.testBit_mod_two_pow, Nat.testBit_div_two_pow, hin, Nat.sub_add_cancel hle]
      using hbit
  · intro h
    apply Nat.eq_of_testBit_eq
    intro i
    rw [Nat.testBit_mod_two_pow, Nat.testBit_mod_two_pow, Nat.testBit_div_two_pow,
      Nat.testBit_div_two_pow]
    by_cases hin : i < count
    · rw [h (i + first) (by omega) (by omega)]
    · rw [decide_eq_false hin, Bool.false_and, Bool.false_and]

/-- Each bit of a number is one bit of one of its bytes. -/
theorem testBit_numberAt {bit : Nat} (hfit : offset + width ≤ bs.length) (h : bit < 8 * width) :
    (bs.numberAt offset width).testBit bit =
      (bs.numberAt (offset + bit / 8) 1).testBit (bit % 8) := by
  have hpow : Nat.pow 256 (bit / 8) = 2 ^ (8 * (bit / 8)) := by
    rw [Nat.pow_mul]
    rfl
  have hbyte : bs.numberAt offset width / 2 ^ (8 * (bit / 8)) % 2 ^ 8 =
      bs.numberAt (offset + bit / 8) 1 := by
    have hone : bit / 8 + 1 ≤ width := by omega
    rw [← hpow]
    exact numberAt_div_mod hone hfit
  have hin : bit % 8 < 8 := Nat.mod_lt bit (by decide)
  rw [← hbyte, Nat.testBit_mod_two_pow, Nat.testBit_div_two_pow, decide_eq_true hin,
    Bool.true_and, Nat.add_comm, Nat.div_add_mod]

end DriveLog.Bytes
