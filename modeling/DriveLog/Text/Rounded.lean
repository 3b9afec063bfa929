import DriveLog.Text.Digits

/-! Numbers with a set number of decimal places. The exact value is rounded to the
nearest multiple of the last place, and a tie goes to the even one. -/

namespace DriveLog.Text

/-- The integer nearest to `num / den`; of two equally near ones the even one. -/
def roundHalfEven (num den : Nat) : Nat :=
  let q := num / den
  let r := num % den
  if 2 * r < den then q
  else if den < 2 * r then q + 1
  else q + q % 2

/-- A quotient with `places` decimal places, at least one. -/
def fixed (places num den : Nat) : String :=
  let n := roundHalfEven (num * Nat.pow 10 places) den
  decimal (n / Nat.pow 10 places) ++ "." ++ padLeft places '0' (decimal (n % Nat.pow 10 places))

/-- A finite binary64 value as a sign and the quotient that is its exact magnitude. -/
structure Magnitude where
  negative : Bool
  num : Nat
  den : Nat

/-- Reads a finite value off its bits; below the least normal exponent the leading bit is absent. -/
def Magnitude.ofFloat (x : Float) : Magnitude :=
  let bits := x.toBits.toNat
  let biased := bits / 0x10000000000000 % 0x800
  let fraction := bits % 0x10000000000000
  let significand := if biased = 0 then fraction else 0x10000000000000 + fraction
  let exponent := max biased 1
  -- The value is `significand * 2 ^ (exponent - 1075)`; one of the two powers is 1.
  { negative := bits / 0x8000000000000000 = 1
    num := significand * Nat.pow 2 (exponent - 1075)
    den := Nat.pow 2 (1075 - exponent) }

def fixedFloat (places : Nat) (x : Float) : String :=
  let m := Magnitude.ofFloat x
  (if m.negative then "-" else "") ++ fixed places m.num m.den

/-- The rounded value is never more than half a unit away. -/
theorem roundHalfEven_near (num den : Nat) (hpos : 0 < den) :
    2 * (roundHalfEven num den * den) ≤ 2 * num + den ∧
      2 * num ≤ 2 * (roundHalfEven num den * den) + den := by
  have hdiv := Nat.div_add_mod num den
  have hlt := Nat.mod_lt num hpos
  rw [Nat.mul_comm] at hdiv
  simp only [roundHalfEven]
  split
  · omega
  · have hsucc : (num / den + 1) * den = num / den * den + den := Nat.succ_mul _ _
    split
    · omega
    · rcases Nat.mod_two_eq_zero_or_one (num / den) with hq | hq <;> rw [hq]
      · rw [Nat.add_zero]; omega
      · omega

end DriveLog.Text
