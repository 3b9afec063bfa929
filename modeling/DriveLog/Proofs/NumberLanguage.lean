import Mathlib.Data.Nat.Digits.Defs
import DriveLog.CommandLine.Number
import DriveLog.Text.Numerals

/-! The language of numbers. A number is written in digits of either case, behind an optional
plus sign, and behind a marker if it is hexadecimal. Digits read so far never stand for more
than all of them do, so the bound refuses a number exactly if it does not fit, and what is
accepted has the value that is written. -/

namespace DriveLog.CommandLine

open Text

variable {radix bound read n d : Nat} {c : Char} {cs : List Char} {s : String}

/-! ## Digits -/

def lowerDigits : List Char := "0123456789abcdef".toList

def upperDigits : List Char := "0123456789ABCDEF".toList

/-- A character that is written for a value below the radix. -/
def IsDigit (radix : Nat) (c : Char) (d : Nat) : Prop :=
  d < radix ∧ (lowerDigits[d]? = some c ∨ upperDigits[d]? = some c)

/-- The radix says no more than which values are taken. -/
theorem digit?_eq_filter (hradix : radix ≤ 16) (c : Char) :
    digit? radix c = (digit? 16 c).filter (· < radix) := by
  have hlimit : ∀ value : Nat,
      (decide (value < 16) && decide (value < radix)) = decide (value < radix) := by
    intro value
    rw [← Bool.decide_and, decide_eq_decide]
    omega
  simp only [digit?, Option.filter_filter, hlimit]

theorem toNat_lt_of_digit? (h : digit? 16 c = some d) : c.toNat < 128 := by
  have hascii : ∀ last : Char, last.toNat < 128 → c ≤ last → c.toNat < 128 :=
    fun last hlast hle => Nat.lt_of_le_of_lt hle hlast
  obtain ⟨h, _⟩ := Option.filter_eq_some_iff.mp h
  split at h
  · rename_i hrange
    exact hascii '9' (by decide) hrange.2
  · split at h
    · rename_i hrange
      exact hascii 'f' (by decide) hrange.2
    · split at h
      · rename_i hrange
        exact hascii 'F' (by decide) hrange.2
      · cases h

theorem digit?_sixteen :
    digit? 16 c = some d ↔ lowerDigits[d]? = some c ∨ upperDigits[d]? = some c := by
  constructor
  · intro h
    -- The digits are among the first 128 characters, which are few enough to try.
    have hall : ∀ k < 128, ∀ d ∈ digit? 16 (Char.ofNat k),
        lowerDigits[d]? = some (Char.ofNat k) ∨ upperDigits[d]? = some (Char.ofNat k) := by
      decide
    have hdigit := hall c.toNat (toNat_lt_of_digit? h) d
    rw [Char.ofNat_toNat] at hdigit
    exact hdigit h
  · have hall : ∀ digits ∈ [lowerDigits, upperDigits],
        ∀ d : Fin digits.length, digit? 16 digits[d] = some d.val := by decide
    rintro (h | h)
    · obtain ⟨hd, rfl⟩ := List.getElem?_eq_some_iff.mp h
      exact hall lowerDigits (by decide) ⟨d, hd⟩
    · obtain ⟨hd, rfl⟩ := List.getElem?_eq_some_iff.mp h
      exact hall upperDigits (by decide) ⟨d, hd⟩

theorem digit?_eq_some_iff (hradix : radix ≤ 16) :
    digit? radix c = some d ↔ IsDigit radix c d := by
  rw [digit?_eq_filter hradix, Option.filter_eq_some_iff, digit?_sixteen, decide_eq_true_iff,
    and_comm, IsDigit]

theorem not_isDigit_plus : ¬IsDigit radix '+' d := by
  have hlower : '+' ∉ lowerDigits := by decide
  have hupper : '+' ∉ upperDigits := by decide
  rintro ⟨_, h | h⟩
  · exact hlower (List.mem_of_getElem? h)
  · exact hupper (List.mem_of_getElem? h)

/-! ## Numerals -/

/-- One digit or more, the highest first, that stand for the number. Zeros in front are digits
like others. -/
def Spells (radix : Nat) (cs : List Char) (n : Nat) : Prop :=
  cs ≠ [] ∧ ∃ ds, List.Forall₂ (IsDigit radix) cs ds ∧ Nat.ofDigits radix ds.reverse = n

/-- Digits behind an optional plus sign. -/
def IsNumeral (radix : Nat) (cs : List Char) (n : Nat) : Prop :=
  Spells radix cs n ∨ ∃ digits, cs = '+' :: digits ∧ Spells radix digits n

/-- What has been read already counts as the highest digit. -/
theorem ofDigits_read_cons (radix read d : Nat) (ds : List Nat) :
    Nat.ofDigits radix (read :: d :: ds).reverse =
      Nat.ofDigits radix ((read * radix + d) :: ds).reverse := by
  rw [Nat.ofDigits_reverse_cons, Nat.ofDigits_reverse_cons, Nat.ofDigits_reverse_cons,
    List.length_cons, Nat.pow_succ]
  ring

/-- More digits never make a number smaller. -/
theorem le_ofDigits_read (hpos : 0 < radix) (read : Nat) (ds : List Nat) :
    read ≤ Nat.ofDigits radix (read :: ds).reverse := by
  rw [Nat.ofDigits_reverse_cons]
  exact Nat.le_add_left_of_le (Nat.le_mul_of_pos_left read (Nat.pow_pos hpos))

theorem readDigits_cons (hradix : radix ≤ 16) : readDigits radix bound read (c :: cs) = .ok n ↔
    ∃ d, IsDigit radix c d ∧ read * radix + d < bound ∧
      readDigits radix bound (read * radix + d) cs = .ok n := by
  simp only [← digit?_eq_some_iff hradix, readDigits]
  cases digit? radix c with
  | none => simp
  | some d =>
    by_cases hfits : read * radix + d < bound <;> simp [hfits]

/-- What fits as a whole fits at every digit. -/
theorem readDigits_eq_ok_iff (hpos : 0 < radix) (hradix : radix ≤ 16) (hread : read < bound) :
    readDigits radix bound read cs = .ok n ↔ n < bound ∧
      ∃ ds, List.Forall₂ (IsDigit radix) cs ds ∧ Nat.ofDigits radix (read :: ds).reverse = n := by
  induction cs generalizing read with
  | nil =>
    have hread' : Nat.ofDigits radix [read].reverse = read := Nat.ofDigits_singleton
    rw [readDigits, Except.ok.injEq]
    constructor
    · rintro rfl
      exact ⟨hread, [], .nil, hread'⟩
    · rintro ⟨_, _, hdigits, hvalue⟩
      cases hdigits
      exact hread'.symm.trans hvalue
  | cons c cs ih =>
    rw [readDigits_cons hradix]
    constructor
    · rintro ⟨d, hdigit, hfits, hrest⟩
      obtain ⟨hn, ds, hdigits, hvalue⟩ := (ih hfits).mp hrest
      exact ⟨hn, d :: ds, .cons hdigit hdigits, (ofDigits_read_cons ..).trans hvalue⟩
    · rintro ⟨hn, _, hdigits, hvalue⟩
      cases hdigits with
      | @cons _ d _ ds hdigit hdigits =>
        rw [ofDigits_read_cons] at hvalue
        -- The digits behind this one only add to the value, and the whole value is in bounds.
        have hfits : read * radix + d < bound :=
          Nat.lt_of_le_of_lt (le_ofDigits_read hpos _ ds) (hvalue ▸ hn)
        exact ⟨d, hdigit, hfits, (ih hfits).mpr ⟨hn, ds, hdigits, hvalue⟩⟩

theorem readDigits_zero (hpos : 0 < radix) (hradix : radix ≤ 16) (hbound : 0 < bound)
    (hcs : cs ≠ []) : readDigits radix bound 0 cs = .ok n ↔ Spells radix cs n ∧ n < bound := by
  simp only [readDigits_eq_ok_iff hpos hradix hbound, Nat.ofDigits_reverse_zero_cons, Spells,
    and_iff_right hcs, and_comm]

theorem not_spells_plus : ¬Spells radix ('+' :: cs) n := by
  rintro ⟨_, _, hdigits, _⟩
  cases hdigits with
  | cons hdigit _ => exact not_isDigit_plus hdigit

theorem isNumeral_plus : IsNumeral radix ('+' :: cs) n ↔ Spells radix cs n := by
  simp only [IsNumeral, not_spells_plus, false_or, List.cons.injEq, true_and, exists_eq_left']

theorem isNumeral_of_ne_plus (h : ∀ digits, cs ≠ '+' :: digits) :
    IsNumeral radix cs n ↔ Spells radix cs n :=
  or_iff_left fun ⟨digits, hplus, _⟩ => h digits hplus

/-- What is read as a numeral, and the value it is given. -/
theorem readNumeral_eq_ok_iff (hpos : 0 < radix) (hradix : radix ≤ 16) (hbound : 0 < bound) :
    readNumeral radix bound cs = .ok n ↔ IsNumeral radix cs n ∧ n < bound := by
  have hempty : ¬Spells radix [] n := fun h => h.1 rfl
  fun_cases readNumeral radix bound cs with
  | case1 =>
    rw [isNumeral_of_ne_plus fun _ h => List.cons_ne_nil _ _ h.symm]
    exact iff_of_false nofun fun h => hempty h.1
  | case2 =>
    rw [isNumeral_plus]
    exact iff_of_false nofun fun h => hempty h.1
  | case3 digits hdigits =>
    rw [isNumeral_plus, readDigits_zero hpos hradix hbound hdigits]
  | case4 _ hne _ hplus =>
    rw [isNumeral_of_ne_plus hplus, readDigits_zero hpos hradix hbound hne]

/-! ## Numbers -/

/-- A hexadecimal numeral behind its marker. -/
def IsMarked (cs numeral : List Char) : Prop :=
  cs = '0' :: 'x' :: numeral ∨ cs = '0' :: 'X' :: numeral

/-- The number that a text is written for, if it is written for one. -/
def Denotes (s : String) (n : Nat) : Prop :=
  (∃ numeral, IsMarked s.toList numeral ∧ IsNumeral 16 numeral n) ∨
    (∀ numeral, ¬IsMarked s.toList numeral) ∧ IsNumeral 10 s.toList n

theorem IsMarked.unique {numeral numeral' : List Char} (h : IsMarked cs numeral)
    (h' : IsMarked cs numeral') : numeral = numeral' := by
  rcases h with rfl | rfl <;> rcases h' with h' | h' <;> cases h' <;> rfl

theorem denotes_of_marked {numeral : List Char} (h : IsMarked s.toList numeral) :
    Denotes s n ↔ IsNumeral 16 numeral n := by
  constructor
  · rintro (⟨_, hmarked, hnumeral⟩ | ⟨hunmarked, _⟩)
    · exact h.unique hmarked ▸ hnumeral
    · exact absurd h (hunmarked numeral)
  · exact fun hnumeral => .inl ⟨numeral, h, hnumeral⟩

theorem denotes_of_unmarked (h : ∀ numeral, ¬IsMarked s.toList numeral) :
    Denotes s n ↔ IsNumeral 10 s.toList n := by
  constructor
  · rintro (⟨numeral, hmarked, _⟩ | ⟨_, hnumeral⟩)
    · exact absurd hmarked (h numeral)
    · exact hnumeral
  · exact fun hnumeral => .inr ⟨h, hnumeral⟩

theorem readNumber_of_marked {numeral : List Char} (h : IsMarked s.toList numeral) :
    readNumber s = (readNumeral 16 0x100000000 numeral).mapError (.numeral s) := by
  unfold readNumber
  rcases h with h | h <;> simp only [h]

theorem readNumber_of_unmarked (h : ∀ numeral, ¬IsMarked s.toList numeral) :
    readNumber s = (readNumeral 10 0x100000000 s.toList).mapError (.numeral s) := by
  unfold readNumber
  split
  · exact absurd (.inl ‹_›) (h _)
  · exact absurd (.inr ‹_›) (h _)
  · rfl

theorem mapError_eq_ok_iff {ε ε' α : Type} {f : ε → ε'} {r : Except ε α} {a : α} :
    r.mapError f = .ok a ↔ r = .ok a := by
  cases r <;> simp [Except.mapError]

theorem readNumber_eq_ok_iff : readNumber s = .ok n ↔ Denotes s n ∧ n < 0x100000000 := by
  by_cases h : ∃ numeral, IsMarked s.toList numeral
  · obtain ⟨numeral, h⟩ := h
    rw [readNumber_of_marked h, mapError_eq_ok_iff, denotes_of_marked h,
      readNumeral_eq_ok_iff (by decide) (by decide) (by decide)]
  · have hunmarked := not_exists.mp h
    rw [readNumber_of_unmarked hunmarked, mapError_eq_ok_iff, denotes_of_unmarked hunmarked,
      readNumeral_eq_ok_iff (by decide) (by decide) (by decide)]

/-- A text that is no number is refused as such, whatever it would have been read for. -/
theorem readNumber_ne_outOfRange : readNumber s ≠ .error (.pageOutOfRange n) := by
  have hfault : ∀ result : Except NumeralFault Nat,
      result.mapError (NumberFault.numeral s) ≠ .error (.pageOutOfRange n) := by
    intro result h
    cases result <;> cases h
  exact hfault _

/-! ## Namespaces and pages -/

theorem map_readNamespace_eq_ok_iff :
    (readNamespace s).map UInt32.toNat = .ok n ↔ readNumber s = .ok n := by
  unfold readNamespace
  cases hread : readNumber s with
  | error fault => exact iff_of_false nofun nofun
  | ok m =>
    have hfits : m < 2 ^ 32 := (readNumber_eq_ok_iff.mp hread).2
    have hnumber : (UInt32.ofNat m).toNat = m := UInt32.toNat_ofNat_of_lt' hfits
    show Except.ok (UInt32.ofNat m).toNat = Except.ok n ↔ Except.ok m = Except.ok n
    rw [hnumber]

theorem readPage_of_ok (h : readNumber s = .ok n) : readPage s =
    if n < 256 then .ok (UInt8.ofNat n) else .error (.pageOutOfRange n) := by
  rw [readPage, h]
  rfl

theorem readPage_of_error {fault : NumberFault} (h : readNumber s = .error fault) :
    readPage s = .error fault := by
  rw [readPage, h]
  rfl

theorem map_readPage_eq_ok_iff :
    (readPage s).map UInt8.toNat = .ok n ↔ readNumber s = .ok n ∧ n < 256 := by
  cases hread : readNumber s with
  | error fault =>
    rw [readPage_of_error hread]
    exact iff_of_false nofun nofun
  | ok m =>
    rw [readPage_of_ok hread, Except.ok.injEq]
    split
    · rename_i hbyte
      show Except.ok (UInt8.ofNat m).toNat = .ok n ↔ m = n ∧ n < 256
      rw [UInt8.toNat_ofNat_of_lt' hbyte, Except.ok.injEq]
      exact ⟨fun h => ⟨h, h ▸ hbyte⟩, And.left⟩
    · rename_i hbyte
      exact iff_of_false nofun fun h => hbyte (h.1 ▸ h.2)

theorem readPage_eq_outOfRange_iff :
    readPage s = .error (.pageOutOfRange n) ↔ readNumber s = .ok n ∧ 256 ≤ n := by
  cases hread : readNumber s with
  | error fault =>
    rw [readPage_of_error hread]
    refine iff_of_false (fun h => ?_) nofun
    cases h
    exact readNumber_ne_outOfRange hread
  | ok m =>
    rw [readPage_of_ok hread, Except.ok.injEq]
    split
    · rename_i hbyte
      exact iff_of_false nofun fun h => absurd (h.1 ▸ hbyte) (Nat.not_lt.mpr h.2)
    · rename_i hbyte
      rw [Except.error.injEq, NumberFault.pageOutOfRange.injEq]
      exact ⟨fun h => ⟨h, h ▸ Nat.not_lt.mp hbyte⟩, And.left⟩

/-- The two faults are told apart by the first letter of their messages. -/
theorem NumberFault.message_eq_outOfRange_iff {fault : NumberFault} :
    fault.message = "log page id " ++ hexWord 1 n ++ " out of range" ↔
      fault = .pageOutOfRange n := by
  cases fault with
  | numeral text cause =>
    have hinvalid : (numeral text cause).message.toList.head? = some 'i' := by
      show ("invalid number " ++ quoted text ++ ": " ++ cause.message).toList.head? = some 'i'
      rw [String.toList_append, String.toList_append, String.toList_append]
      rfl
    have hpage : ("log page id " ++ hexWord 1 n ++ " out of range").toList.head? = some 'l' := by
      rw [String.toList_append, String.toList_append]
      rfl
    refine iff_of_false (fun h => ?_) nofun
    rw [h, hpage] at hinvalid
    cases hinvalid
  | pageOutOfRange id =>
    show "log page id " ++ hexWord 1 id ++ " out of range" = _ ↔ _
    rw [String.append_left_inj, String.append_right_inj, hexWord_inj, pageOutOfRange.injEq]

/-- What a text is read as for a namespace and for a page. -/
structure ReadsNumber (s : String) : Prop where
  namespace_iff : ∀ n, (readNamespace s).map UInt32.toNat = .ok n ↔ Denotes s n ∧ n < 2 ^ 32
  page_iff : ∀ n, (readPage s).map UInt8.toNat = .ok n ↔
    (readNamespace s).map UInt32.toNat = .ok n ∧ n < 256
  out_of_range_iff : ∀ n,
    (∃ fault, readPage s = .error fault ∧
      fault.message = "log page id " ++ hexWord 1 n ++ " out of range") ↔
        (readNamespace s).map UInt32.toNat = .ok n ∧ 256 ≤ n

/-- Exactly the texts that denote a number in bounds are read, and they are read as that number. -/
theorem readsNumber (s : String) : ReadsNumber s where
  namespace_iff n := by
    rw [map_readNamespace_eq_ok_iff]
    exact readNumber_eq_ok_iff
  page_iff n := by rw [map_readNamespace_eq_ok_iff, map_readPage_eq_ok_iff]
  out_of_range_iff n := by
    rw [map_readNamespace_eq_ok_iff, ← readPage_eq_outOfRange_iff]
    constructor
    · rintro ⟨fault, hread, hmessage⟩
      rw [hread, NumberFault.message_eq_outOfRange_iff.mp hmessage]
    · exact fun hread => ⟨_, hread, rfl⟩

example : readNamespace "0X+00000000fF" = .ok 255 := by decide

example : readPage "0x100" = .error (.pageOutOfRange 256) := by decide

end DriveLog.CommandLine
