import Mathlib.Algebra.Order.Field.Rat
import Mathlib.Tactic.FieldSimp
import Mathlib.Tactic.Linarith
import Mathlib.Tactic.NormNum
import Mathlib.Tactic.Ring
import DriveLog.Text.Rounded

/-! Rounding, said of rational numbers. The nearest integer, of two equally near ones the even
one, is one only and grows with the number, so decimal places are those of the number and not of
the quotient that it is written as. A number that binary64 holds is nearest to itself, and no
rounding to binary64 moves it. -/

namespace DriveLog.Text

variable {q q' : ℚ} {m n num num' den den' : Nat}

/-! ## To integers -/

/-- The integer is the nearest one, or of two equally near ones the even one. -/
structure Rounds (q : ℚ) (n : Nat) : Prop where
  near : |(n : ℚ) - q| ≤ 1 / 2
  even_of_tie : |(n : ℚ) - q| = 1 / 2 → n % 2 = 0

theorem Rounds.mono (h : Rounds q m) (h' : Rounds q' n) (hq : q ≤ q') : m ≤ n := by
  by_contra hlt
  have hnext : (n : ℚ) + 1 ≤ m := by exact_mod_cast Nat.not_le.mp hlt
  have habove : (m : ℚ) - q ≤ 1 / 2 := (abs_le.mp h.near).2
  have hbelow : -(1 / 2) ≤ (n : ℚ) - q' := (abs_le.mp h'.near).1
  -- Two numbers so far apart are both ties, and one of two neighbours is odd.
  have htie : (m : ℚ) - q = 1 / 2 := by linarith
  have htie' : (n : ℚ) - q' = -(1 / 2) := by linarith
  have heven : m % 2 = 0 := h.even_of_tie (by rw [htie]; norm_num)
  have heven' : n % 2 = 0 := h'.even_of_tie (by rw [htie', abs_neg]; norm_num)
  have hsucc : (m : ℚ) = (n + 1 : Nat) := by push_cast; linarith
  have hsucc' : m = n + 1 := by exact_mod_cast hsucc
  omega

theorem Rounds.unique (h : Rounds q m) (h' : Rounds q n) : m = n :=
  Nat.le_antisymm (h.mono h' le_rfl) (h'.mono h le_rfl)

/-- Only a remainder of one half leaves a choice, and it is made for the even one. -/
theorem roundHalfEven_even (h : 2 * (roundHalfEven num den * den) = 2 * num + den ∨
    2 * num = 2 * (roundHalfEven num den * den) + den) (hpos : 0 < den) :
    roundHalfEven num den % 2 = 0 := by
  have hdiv := Nat.div_add_mod num den
  have hlt := Nat.mod_lt num hpos
  rw [Nat.mul_comm] at hdiv
  simp only [roundHalfEven] at h ⊢
  split at h
  · omega
  · have hsucc : (num / den + 1) * den = num / den * den + den := Nat.succ_mul _ _
    split at h
    · omega
    · rename_i hlow hhigh
      rw [if_neg hlow, if_neg hhigh]
      omega

theorem rounds_roundHalfEven (num : Nat) (hpos : 0 < den) :
    Rounds (num / den) (roundHalfEven num den) := by
  have hden : (0 : ℚ) < den := by exact_mod_cast hpos
  have hdist : ((roundHalfEven num den : ℚ) - num / den) * den =
      roundHalfEven num den * den - num := by
    field_simp
  obtain ⟨habove, hbelow⟩ := roundHalfEven_near num den hpos
  constructor
  · have habove' : 2 * ((roundHalfEven num den : ℚ) * den) ≤ 2 * num + den := by
      exact_mod_cast habove
    have hbelow' : (2 * num : ℚ) ≤ 2 * (roundHalfEven num den * den) + den := by
      exact_mod_cast hbelow
    rw [abs_le]
    constructor
    · apply le_of_mul_le_mul_right _ hden
      rw [hdist]
      linarith
    · apply le_of_mul_le_mul_right _ hden
      rw [hdist]
      linarith
  · intro htie
    apply roundHalfEven_even _ hpos
    rcases (abs_eq (by norm_num)).mp htie with hhalf | hhalf
    · left
      rw [hhalf] at hdist
      have htwo : 2 * ((roundHalfEven num den : ℚ) * den) = 2 * num + den := by linarith
      exact_mod_cast htwo
    · right
      rw [hhalf] at hdist
      have htwo : (2 * num : ℚ) = 2 * (roundHalfEven num den * den) + den := by linarith
      exact_mod_cast htwo

theorem roundHalfEven_congr (hpos : 0 < den) (hpos' : 0 < den')
    (h : (num : ℚ) / den = num' / den') : roundHalfEven num den = roundHalfEven num' den' := by
  have hrounds := rounds_roundHalfEven num hpos
  rw [h] at hrounds
  exact hrounds.unique (rounds_roundHalfEven num' hpos')

/-! ## To decimal places -/

theorem fixed_congr (places : Nat) (hpos : 0 < den) (hpos' : 0 < den')
    (h : (num : ℚ) / den = num' / den') : fixed places num den = fixed places num' den' := by
  have hscaled : ((num * Nat.pow 10 places : Nat) : ℚ) / den =
      ((num' * Nat.pow 10 places : Nat) : ℚ) / den' := by
    push_cast
    rw [mul_div_right_comm, h, mul_div_right_comm]
  rw [fixed, fixed, roundHalfEven_congr hpos hpos' hscaled]

/-- The digits are those of the number of last places, rounded. -/
theorem exists_rounds_fixed (places num : Nat) (hpos : 0 < den) :
    ∃ n, Rounds (num * Nat.pow 10 places / den) n ∧ fixed places num den =
      decimal (n / Nat.pow 10 places) ++ "." ++
        padLeft places '0' (decimal (n % Nat.pow 10 places)) := by
  have hrounds := rounds_roundHalfEven (num * Nat.pow 10 places) hpos
  rw [Nat.cast_mul] at hrounds
  exact ⟨_, hrounds, rfl⟩

/-! ## To binary64 -/

/-- A finite binary64 number without a sign. -/
structure Binary64 where
  significand : Nat
  exponent : Nat
  significand_lt : significand < 0x20000000000000
  one_le_exponent : 1 ≤ exponent
  exponent_le : exponent ≤ 2046

namespace Binary64

variable {x y : Binary64}

/-- Its exact magnitude, of which one power of two is 1. -/
def magnitude (x : Binary64) : Magnitude where
  negative := false
  num := x.significand * Nat.pow 2 (x.exponent - 1075)
  den := Nat.pow 2 (1075 - x.exponent)

def value (x : Binary64) : ℚ := x.magnitude.num / x.magnitude.den

/-- No binary64 number is nearer. -/
def IsNearest (q : ℚ) (x : Binary64) : Prop := ∀ y : Binary64, |x.value - q| ≤ |y.value - q|

theorem isNearest_value (x : Binary64) : IsNearest x.value x := by
  intro y
  rw [sub_self, abs_zero]
  exact abs_nonneg _

theorem IsNearest.value_eq (h : IsNearest y.value x) : x.value = y.value := by
  have hle := h y
  rw [sub_self, abs_zero, abs_nonpos_iff, sub_eq_zero] at hle
  exact hle

/-- A number of 53 bits, also after division by a power of two, is in the format. -/
theorem exists_value_eq {shift : Nat} (hn : n < 0x20000000000000) (hshift : shift ≤ 1074) :
    ∃ x : Binary64, x.value = n / Nat.pow 2 shift := by
  refine ⟨⟨n, 1075 - shift, hn, by omega, by omega⟩, ?_⟩
  have hup : 1075 - shift - 1075 = 0 := by omega
  have hdown : 1075 - (1075 - shift) = shift := by omega
  simp [value, magnitude, hup, hdown]

end Binary64

end DriveLog.Text
