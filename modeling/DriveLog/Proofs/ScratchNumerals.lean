import Mathlib.Data.Nat.Digits.Lemmas
import DriveLog.Counter
import DriveLog.Text.Numerals

/-! Numerals in a scratch, cell by cell. Writing backwards puts down the lowest digits, as
many as there are cells for, and leaves the cells before them as they were. So a numeral that
fits stands whole at the very end, and of one that does not fit the lowest digits are left. A
counter's numeral always fits its scratch, and is then filled with spaces to its place. -/

namespace DriveLog

open Text

variable {n : Nat} {cells : List Char}

/-! ## Digits -/

/-- The number of decimal digits. Zero has one. -/
def digitCount (n : Nat) : Nat := max 1 (Nat.digits 10 n).length

/-- The decimal digits, lowest first. Zero has the digit zero. -/
def lowestFirst (n : Nat) : List Nat := n % 10 :: Nat.digits 10 (n / 10)

theorem lowestFirst_of_ne_zero (h : n ≠ 0) : lowestFirst n = Nat.digits 10 n :=
  (Nat.digits_def' (by decide) (Nat.pos_of_ne_zero h)).symm

theorem length_lowestFirst (n : Nat) : (lowestFirst n).length = digitCount n := by
  by_cases h : n = 0
  · subst h
    simp [lowestFirst, digitCount]
  · have hpos : 0 < (lowestFirst n).length := Nat.succ_pos _
    rw [lowestFirst_of_ne_zero h] at hpos ⊢
    exact (Nat.max_eq_right hpos).symm

theorem toDigits_eq_lowestFirst (n : Nat) :
    Nat.toDigits 10 n = ((lowestFirst n).map Nat.digitChar).reverse := by
  induction n using Nat.strongRecOn with
  | ind n ih =>
    rw [lowestFirst, List.map_cons, List.reverse_cons, ← toDigits_snoc n]
    by_cases h : n / 10 = 0
    · rw [if_pos h, h, Nat.digits_zero]
      rfl
    · have hlt : n / 10 < n := by omega
      rw [if_neg h, ih (n / 10) hlt, lowestFirst_of_ne_zero h]

theorem length_decimal (n : Nat) : (decimal n).length = digitCount n := by
  rw [← String.length_toList, toList_decimal, toDigits_eq_lowestFirst, List.length_reverse,
    List.length_map, length_lowestFirst]

/-- The text is the canonical numeral of the number. -/
structure IsNumeral (n : Nat) (text : String) : Prop where
  length_eq : text.length = digitCount n
  isDigit : ∀ c ∈ text.toList, c.isDigit = true
  value_eq : Nat.ofDigitChars 10 text.toList 0 = n
  /-- A zero in front is the numeral of zero itself. -/
  leading : text.toList.head? = some '0' → n = 0

theorem head?_toDigits (h : n ≠ 0) : (Nat.toDigits 10 n).head? ≠ some '0' := by
  have hne : Nat.digits 10 n ≠ [] := Nat.digits_ne_nil_iff_ne_zero.mpr h
  have hlast : (Nat.digits 10 n).getLast hne ≠ 0 := Nat.getLast_digit_ne_zero 10 h
  have hlt : (Nat.digits 10 n).getLast hne < 10 :=
    Nat.digits_lt_base (by decide) (List.getLast_mem hne)
  have hchar : ∀ d < 10, d ≠ 0 → Nat.digitChar d ≠ '0' := by decide
  rw [toDigits_eq_lowestFirst, lowestFirst_of_ne_zero h, List.head?_reverse, List.getLast?_map,
    List.getLast?_eq_some_getLast hne, Option.map_some, Ne, Option.some_inj]
  exact hchar _ hlt hlast

theorem isNumeral_decimal (n : Nat) : IsNumeral n (decimal n) where
  length_eq := length_decimal n
  isDigit _ hc := isDigit_of_mem_decimal hc
  value_eq := by rw [toList_decimal, Nat.ofDigitChars_ten_toDigits]
  leading hhead := by
    by_contra h
    rw [toList_decimal] at hhead
    exact head?_toDigits h hhead

/-! ## Cells -/

theorem digits_fillBackwards_eq (n : Nat) (cells : List Char) :
    (fillBackwards n cells).digits =
      (((Nat.digits 10 n).take cells.length).map Nat.digitChar).reverse := by
  induction cells generalizing n with
  | nil => rfl
  | cons cell cells ih =>
    by_cases h : n = 0
    · simp [fillBackwards, h]
    · rw [fillBackwards, if_neg h, Nat.digits_def' (by decide) (Nat.pos_of_ne_zero h)]
      simp [ih]

theorem untouched_fillBackwards (n : Nat) (cells : List Char) :
    (fillBackwards n cells).untouched = (cells.drop (Nat.digits 10 n).length).reverse := by
  induction cells generalizing n with
  | nil => simp [fillBackwards]
  | cons cell cells ih =>
    by_cases h : n = 0
    · simp [fillBackwards, h]
    · rw [fillBackwards, if_neg h, Nat.digits_def' (by decide) (Nat.pos_of_ne_zero h)]
      simp [ih]

/-- Nothing is left over exactly if there is a cell for every digit. -/
theorem left_fillBackwards_eq_zero_iff :
    (fillBackwards n cells).left = 0 ↔ (Nat.digits 10 n).length ≤ cells.length := by
  have hpos : 0 < Nat.pow 10 cells.length := Nat.pow_pos (by decide)
  rw [left_fillBackwards, Nat.div_eq_zero_iff_lt hpos, Nat.digits_length_le_iff (by decide)]
  rfl

/-- The last cell takes the lowest digit, and what is left of the number goes before it. -/
theorem writeDecimal_snoc (n : Nat) (before : List Char) (last : Char) :
    writeDecimal n (before ++ [last]) =
      (if digitCount n ≤ before.length + 1 then
          some (String.ofList
            (((lowestFirst n).take (before.length + 1)).map Nat.digitChar).reverse)
        else none,
        before.take (before.length + 1 - digitCount n) ++
          (((lowestFirst n).take (before.length + 1)).map Nat.digitChar).reverse) := by
  have hrev : (before ++ [last]).reverse = last :: before.reverse := by simp
  have hcount : digitCount n = (Nat.digits 10 (n / 10)).length + 1 :=
    (length_lowestFirst n).symm
  have hleft : (fillBackwards (n / 10) before.reverse).left = 0 ↔
      digitCount n ≤ before.length + 1 := by
    rw [left_fillBackwards_eq_zero_iff, List.length_reverse, hcount, Nat.add_le_add_iff_right]
  have huntouched : (before.reverse.drop (Nat.digits 10 (n / 10)).length).reverse =
      before.take (before.length + 1 - digitCount n) := by
    rw [List.reverse_drop, List.reverse_reverse, List.length_reverse, hcount,
      Nat.add_sub_add_right]
  simp only [writeDecimal, hrev, Filling.numeral?, Filling.cells, hleft, digits_fillBackwards_eq,
    untouched_fillBackwards, huntouched, List.length_reverse, lowestFirst, List.take_succ_cons,
    List.map_cons, List.reverse_cons]

theorem digitCount_pos (n : Nat) : 0 < digitCount n := Nat.le_max_left 1 _

/-- A numeral that fits stands at the end, behind cells that stay as they were. -/
theorem writeDecimal_of_le (h : digitCount n ≤ cells.length) :
    writeDecimal n cells =
      (some (decimal n), cells.take (cells.length - digitCount n) ++ (decimal n).toList) := by
  rcases List.eq_nil_or_concat cells with rfl | ⟨before, last, rfl⟩
  · exact absurd h (Nat.not_le.mpr (digitCount_pos n))
  · have hall : (lowestFirst n).take (before.length + 1) = lowestFirst n := by
      apply List.take_of_length_le
      rw [length_lowestFirst]
      simpa using h
    rw [List.concat_eq_append, List.length_append, List.length_singleton] at h ⊢
    have hfront : (before ++ [last]).take (before.length + 1 - digitCount n) =
        before.take (before.length + 1 - digitCount n) := by
      apply List.take_append_of_le_length
      have := digitCount_pos n
      omega
    rw [writeDecimal_snoc, if_pos h, hall, ← toDigits_eq_lowestFirst, hfront, toList_decimal]
    rfl

/-- Of a numeral that does not fit the lowest digits are left in the cells. -/
theorem writeDecimal_of_lt_digitCount (h : cells.length < digitCount n) :
    writeDecimal n cells =
      (none, (((Nat.digits 10 n).take cells.length).map Nat.digitChar).reverse) := by
  rcases List.eq_nil_or_concat cells with rfl | ⟨before, last, rfl⟩
  · rfl
  · rw [List.concat_eq_append, List.length_append, List.length_singleton] at h ⊢
    have hne : n ≠ 0 := by
      rintro rfl
      simp [digitCount] at h
    rw [writeDecimal_snoc, if_neg (Nat.not_le.mpr h), lowestFirst_of_ne_zero hne,
      Nat.sub_eq_zero_of_le (Nat.le_of_lt h), List.take_zero, List.nil_append]

/-- What writing a number into cells gives, and what it leaves in them. -/
structure WritesNumeral (n : Nat) (cells : List Char) : Prop where
  numeral : IsNumeral n (decimal n)
  isSome_iff : (writeDecimal n cells).1.isSome = true ↔ digitCount n ≤ cells.length
  whole : digitCount n ≤ cells.length → writeDecimal n cells =
    (some (decimal n), cells.take (cells.length - digitCount n) ++ (decimal n).toList)
  cut : cells.length < digitCount n → writeDecimal n cells =
    (none, (((Nat.digits 10 n).take cells.length).map Nat.digitChar).reverse)

theorem writesNumeral (n : Nat) (cells : List Char) : WritesNumeral n cells where
  numeral := isNumeral_decimal n
  isSome_iff := by
    rcases Nat.lt_or_ge cells.length (digitCount n) with h | h
    · rw [writeDecimal_of_lt_digitCount h]
      exact iff_of_false Bool.false_ne_true (Nat.not_le.mpr h)
    · rw [writeDecimal_of_le h]
      exact iff_of_true rfl h
  whole := writeDecimal_of_le
  cut := writeDecimal_of_lt_digitCount

/-! ## Places -/

namespace Text

/-- The text with spaces around it as the alignment has it, at least `width` characters
together. -/
structure Fills (text : String) (width : Nat) (align : Alignment) (filled : String) : Prop where
  length_eq : filled.length = max width text.length
  spaced : ∃ before after, filled = spaces before ++ text ++ spaces after ∧
    match align with
    | .left => before = 0
    | .right => after = 0
    | .center => before ≤ after ∧ after ≤ before + 1

theorem Padding.before_le (p : Padding) (n : Nat) : p.before n ≤ p.width - n := by
  unfold before
  split
  · exact Nat.zero_le _
  · exact Nat.le_refl _
  · exact Nat.div_le_self _ 2

theorem Padding.fills_apply (text : String) (width : Nat) (align : Alignment) :
    Fills text width align (apply { width, align } text) where
  length_eq := by
    have hle := before_le { width, align } text.length
    simp only [apply, cut, String.length_append, length_spaces] at hle ⊢
    omega
  spaced := by
    refine ⟨_, _, rfl, ?_⟩
    cases align with
    | left => rfl
    | right => exact Nat.sub_self _
    | center =>
      simp only [before, cut]
      omega

end Text

/-- What a counter shows: its numeral, whatever its place, and whatever the scratch held. -/
structure Counter.ShowsNumeral {width : CounterWidth} (c : Counter width) : Prop where
  fits : digitCount c.value ≤ width.maxDigits
  written : ∀ scratch : List Char, scratch.length = width.maxDigits →
    (writeDecimal c.value scratch).1 = some c.numeral
  numeral : IsNumeral c.value c.numeral
  fills : ∀ width align, Fills c.numeral width align (c.text { width, align })

theorem Counter.showsNumeral {width : CounterWidth} (c : Counter width) : c.ShowsNumeral where
  fits := by
    rw [← List.length_replicate (n := width.maxDigits) (a := ' '),
      ← (writesNumeral c.value _).isSome_iff]
    exact c.scratch_fits
  written scratch hscratch := by rw [c.writeDecimal_scratch hscratch, numeral_eq]
  numeral := by
    rw [numeral_eq]
    exact isNumeral_decimal c.value
  fills width align := Padding.fills_apply c.numeral width align

/-- Numbers of any size are written to the last digit or cut to the lowest ones, and no
counter is so large that its own scratch would cut it. -/
theorem writeDecimal_exact :
    (∀ (n : Nat) (cells : List Char), WritesNumeral n cells) ∧
      ∀ {width : CounterWidth} (c : Counter width), c.ShowsNumeral :=
  ⟨writesNumeral, Counter.showsNumeral⟩

end DriveLog
