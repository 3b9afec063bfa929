import DriveLog.Text.Blocks
import DriveLog.Text.Digits

/-! Reading numerals back. The value of a run of digits undoes each of the two notations,
and zeros in front do not change it, so a numeral in its place tells its number. Where other
characters follow, the digits end before the first of them. -/

namespace DriveLog.Text

/-! ## Values of digits -/

def digitValue (c : Char) : Nat :=
  if c.isDigit then c.toNat - '0'.toNat else c.toNat - 'a'.toNat + 10

/-- The number that a run of digits stands for, highest digit first. -/
def numeralValue (base : Nat) (cs : List Char) : Nat :=
  cs.foldl (fun n c => base * n + digitValue c) 0

variable {base m n width : Nat} {s t : String}

theorem digitValue_digitChar (h : n < 16) : digitValue (Nat.digitChar n) = n := by
  have hall : ∀ d < 16, digitValue (Nat.digitChar d) = d := by decide
  exact hall n h

theorem numeralValue_snoc (base : Nat) (cs : List Char) (c : Char) :
    numeralValue base (cs ++ [c]) = base * numeralValue base cs + digitValue c := by
  simp [numeralValue]

theorem numeralValue_toDigits (hlow : 1 < base) (hhigh : base ≤ 16) (n : Nat) :
    numeralValue base (Nat.toDigits base n) = n := by
  induction n using Nat.strongRecOn with
  | ind n ih =>
    rw [Nat.toDigits_eq_if hlow]
    split
    · rename_i hlt
      have hsingle := numeralValue_snoc base [] (Nat.digitChar n)
      rw [digitValue_digitChar (by omega)] at hsingle
      exact hsingle.trans (Nat.zero_add n)
    · have hquotient := ih (n / base) (Nat.div_lt_self (by omega) hlow)
      have hdigit : n % base < 16 := Nat.lt_of_lt_of_le (Nat.mod_lt n (by omega)) hhigh
      rw [numeralValue_snoc, hquotient, digitValue_digitChar hdigit, Nat.div_add_mod]

theorem numeralValue_zeros (base k : Nat) (cs : List Char) :
    numeralValue base (List.replicate k '0' ++ cs) = numeralValue base cs := by
  have hzeros : numeralValue base (List.replicate k '0') = 0 := by
    induction k with
    | zero => rfl
    | succ k ih =>
      rw [List.replicate_succ', numeralValue_snoc, ih]
      rfl
  unfold numeralValue at hzeros ⊢
  rw [List.foldl_append, hzeros]

/-! ## Numerals -/

@[simp] theorem decimal_inj : decimal m = decimal n ↔ m = n :=
  ⟨decimal_injective, congrArg decimal⟩

theorem numeralValue_hexDigits (width n : Nat) :
    numeralValue 16 (hexDigits width n).toList = n := by
  rw [hexDigits, toList_padLeft, numeralValue_zeros, toList_hex,
    numeralValue_toDigits (by decide) (by decide)]

@[simp] theorem hexDigits_inj : hexDigits width m = hexDigits width n ↔ m = n := by
  refine ⟨fun h => ?_, congrArg (hexDigits width)⟩
  rw [← numeralValue_hexDigits width m, h, numeralValue_hexDigits]

@[simp] theorem hexWord_inj : hexWord width m = hexWord width n ↔ m = n := by
  unfold hexWord
  rw [String.append_right_inj, hexDigits_inj]

/-- A numeral fills a column that has room for its digits exactly. -/
theorem length_padLeft_toDigits (hbase : 1 < base) (hwidth : 0 < width) (fill : Char)
    (h : n < Nat.pow base width) :
    (padLeft width fill (String.ofList (Nat.toDigits base n))).length = width := by
  have hdigits : (Nat.toDigits base n).length ≤ width :=
    (Nat.length_toDigits_le_iff hbase hwidth).mpr h
  rw [length_padLeft, ← String.length_toList, String.toList_ofList]
  omega

theorem isDigit_of_mem_decimal {c : Char} (h : c ∈ (decimal n).toList) : c.isDigit = true := by
  rw [toList_decimal] at h
  exact Nat.isDigit_of_mem_toDigits (by decide) (by decide) h

/-- A number before something that is no digit is told apart from it. -/
theorem decimal_append_inj (hs : ∀ c ∈ s.toList.head?, c.isDigit = false)
    (ht : ∀ c ∈ t.toList.head?, c.isDigit = false) :
    decimal m ++ s = decimal n ++ t ↔ m = n ∧ s = t := by
  constructor
  · intro h
    have hlists : (decimal m).toList ++ s.toList = (decimal n).toList ++ t.toList := by
      rw [← String.toList_append, h, String.toList_append]
    have hnodigit : ∀ k, ∀ c ∈ (decimal k).toList, (!c.isDigit) = false :=
      fun k c hc => by simp [isDigit_of_mem_decimal hc]
    obtain ⟨hdigits, hrest⟩ := append_inj_of_mark (hnodigit m) (hnodigit n)
      (fun c hc => by simp [hs c hc]) (fun c hc => by simp [ht c hc]) hlists
    exact ⟨decimal_injective (String.toList_inj.mp hdigits), String.toList_inj.mp hrest⟩
  · rintro ⟨rfl, rfl⟩
    rfl

end DriveLog.Text
