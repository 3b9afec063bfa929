import DriveLog.Text.Padding
import DriveLog.Bytes.LittleEndian

/-! Lifetime counters. A counter stands on the page in sixteen bytes; it is kept whole,
or by its low eight bytes alone where the rest is dropped. Its numeral is written into a
scratch of fixed length from the last cell backwards. A scratch too short for the
numeral ends up holding the lowest digits. -/

namespace DriveLog

open Text

/-- How many of a counter's sixteen bytes are kept. -/
inductive CounterWidth where
  | full
  | narrow
deriving DecidableEq, Repr

namespace CounterWidth

def bytes : CounterWidth → Nat
  | full => 16
  | narrow => 8

/-- The length of the longest numeral of this width. -/
def maxDigits : CounterWidth → Nat
  | full => 39
  | narrow => 20

theorem pow_bytes_le (width : CounterWidth) :
    Nat.pow 256 width.bytes ≤ Nat.pow 10 width.maxDigits := by
  cases width <;> decide

end CounterWidth

/-! ## Numerals in a scratch -/

/-- What writing backwards leaves behind. -/
structure Filling where
  /-- The cells before the numeral, in order. -/
  untouched : List Char
  /-- The digits written, highest first. -/
  digits : List Char
  /-- The part of the number that found no cell. -/
  left : Nat

namespace Filling

def cells (f : Filling) : List Char := f.untouched ++ f.digits

/-- The numeral, if all of it found a cell. -/
def numeral? (f : Filling) : Option String :=
  if f.left = 0 then some (String.ofList f.digits) else none

end Filling

/-- Writes the digits of `n` over the cells, which are given last first; zero writes nothing. -/
def fillBackwards (n : Nat) : List Char → Filling
  | [] => ⟨[], [], n⟩
  | cell :: cells =>
    if n = 0 then ⟨(cell :: cells).reverse, [], 0⟩
    else
      let f := fillBackwards (n / 10) cells
      { f with digits := f.digits ++ [Nat.digitChar (n % 10)] }

/-- Writes the numeral of `n` into the tail of the cells. Even zero takes the last cell. -/
def writeDecimal (n : Nat) (cells : List Char) : Option String × List Char :=
  match cells.reverse with
  | [] => (none, [])
  | _ :: before =>
    let f := fillBackwards (n / 10) before
    let f := { f with digits := f.digits ++ [Nat.digitChar (n % 10)] }
    (f.numeral?, f.cells)

theorem left_fillBackwards (n : Nat) (cells : List Char) :
    (fillBackwards n cells).left = n / Nat.pow 10 cells.length := by
  induction cells generalizing n with
  | nil => simp [fillBackwards]
  | cons cell cells ih =>
    simp only [fillBackwards, List.length_cons, Nat.pow_eq, Nat.pow_succ'] at ih ⊢
    split
    · rename_i h
      simp [h]
    · simp only [ih, Nat.div_div_eq_div_mul]

/-- A numeral without its last digit is the numeral of the quotient, if that is not zero. -/
theorem toDigits_snoc (n : Nat) :
    (if n / 10 = 0 then [] else Nat.toDigits 10 (n / 10)) ++ [Nat.digitChar (n % 10)] =
      Nat.toDigits 10 n := by
  rw [Nat.toDigits_eq_if (n := n) (by decide)]
  by_cases h : n < 10
  · rw [if_pos h, if_pos (Nat.div_eq_of_lt h), Nat.mod_eq_of_lt h]
    rfl
  · rw [if_neg h, if_neg (by omega)]

theorem digits_fillBackwards {n : Nat} {cells : List Char} (h : n < Nat.pow 10 cells.length) :
    (fillBackwards n cells).digits = if n = 0 then [] else Nat.toDigits 10 n := by
  induction cells generalizing n with
  | nil =>
    obtain rfl : n = 0 := Nat.lt_one_iff.mp h
    rfl
  | cons cell cells ih =>
    by_cases hn : n = 0
    · simp [fillBackwards, hn]
    · rw [List.length_cons, Nat.pow_eq, Nat.pow_succ] at h
      have hquotient : n / 10 < Nat.pow 10 cells.length := by
        rw [Nat.pow_eq]
        omega
      simp only [fillBackwards, if_neg hn, ih hquotient, toDigits_snoc]

/-- A numeral for which there are cells enough is written whole. -/
theorem writeDecimal_of_lt {n : Nat} {cells : List Char} (hne : cells ≠ [])
    (h : n < Nat.pow 10 cells.length) : (writeDecimal n cells).1 = some (decimal n) := by
  obtain ⟨last, before, hrev⟩ := List.exists_cons_of_ne_nil
    (List.reverse_ne_nil_iff.mpr hne)
  have hlen : cells.length = before.length + 1 := by
    rw [← List.length_reverse, hrev, List.length_cons]
  rw [hlen, Nat.pow_eq, Nat.pow_succ] at h
  have hquotient : n / 10 < Nat.pow 10 before.length := by
    rw [Nat.pow_eq]
    omega
  simp only [writeDecimal, hrev, Filling.numeral?, left_fillBackwards,
    Nat.div_eq_of_lt hquotient, digits_fillBackwards hquotient, toDigits_snoc]
  rfl

/-! ## Counters -/

structure Counter (width : CounterWidth) where
  value : Nat
  value_lt : value < Nat.pow 256 width.bytes

namespace Counter

variable {width : CounterWidth}

/-- A number kept at this width; what does not fit is dropped. -/
def ofNat (width : CounterWidth) (n : Nat) : Counter width :=
  ⟨n % Nat.pow 256 width.bytes, Nat.mod_lt _ (Nat.pow_pos (by decide))⟩

/-- The counter of sixteen bytes, of which the width says how many are looked at. -/
def ofBytes (width : CounterWidth) (bs : Bytes) : Counter width where
  value := Bytes.ofLE (bs.take width.bytes)
  value_lt := Nat.lt_of_lt_of_le (Bytes.ofLE_lt _)
    (Nat.pow_le_pow_right (by decide) (List.length_take_le _ _))

/-- A scratch of the greatest length takes the numeral, whatever it held before. -/
theorem writeDecimal_scratch (c : Counter width) {scratch : List Char}
    (h : scratch.length = width.maxDigits) :
    (writeDecimal c.value scratch).1 = some (decimal c.value) := by
  apply writeDecimal_of_lt
  · rintro rfl
    cases width <;> cases h
  · rw [h]
    exact Nat.lt_of_lt_of_le c.value_lt width.pow_bytes_le

theorem scratch_fits (c : Counter width) :
    (writeDecimal c.value (List.replicate width.maxDigits ' ')).1.isSome := by
  rw [c.writeDecimal_scratch List.length_replicate]
  rfl

/-- The counter's numeral; a scratch of the greatest length always suffices. -/
def numeral (c : Counter width) : String :=
  (writeDecimal c.value (List.replicate width.maxDigits ' ')).1.get c.scratch_fits

theorem numeral_eq (c : Counter width) : c.numeral = decimal c.value := by
  simp only [numeral, c.writeDecimal_scratch List.length_replicate, Option.get_some]

def text (c : Counter width) (place : Padding) : String := place.apply c.numeral

end Counter

end DriveLog
