import DriveLog.Counter

/-! The two widths of a counter. A narrow counter is the full one of the same bytes with the
high eight set to zero, in its value, in every scratch and in every text, and so it shows
what the full one shows as long as those bytes are zero anyway. -/

namespace DriveLog.Counter

variable {bs : Bytes}

/-- The bytes of a counter as the narrow width sees them. -/
def clearHigh (bs : Bytes) : Bytes := bs.take 8 ++ List.replicate 8 0

theorem value_clearHigh (h : bs.length = 16) :
    (ofBytes .full (clearHigh bs)).value = (ofBytes .narrow bs).value := by
  have hlow : (bs.take 8).length = 8 := by rw [List.length_take, h]; rfl
  have hlength : (clearHigh bs).length = 16 := by
    rw [clearHigh, List.length_append, hlow, List.length_replicate]
  have htake : (clearHigh bs).take 16 = clearHigh bs := List.take_of_length_le (by omega)
  show Bytes.ofLE ((clearHigh bs).take 16) = Bytes.ofLE (bs.take 8)
  rw [htake, clearHigh, Bytes.ofLE_append, Bytes.ofLE_replicate_zero, Nat.mul_zero, Nat.add_zero]

/-- The full counter is the narrow one with the high bytes above it. -/
theorem value_full (h : bs.length = 16) :
    (ofBytes .full bs).value =
      (ofBytes .narrow bs).value + Nat.pow 256 8 * Bytes.ofLE (bs.drop 8) := by
  have hle : 8 ≤ bs.length := by omega
  show Bytes.ofLE (bs.take 16) = Bytes.ofLE (bs.take 8) + Nat.pow 256 8 * Bytes.ofLE (bs.drop 8)
  rw [List.take_of_length_le (by omega)]
  exact Bytes.ofLE_take_add_drop hle

theorem value_narrow (h : bs.length = 16) :
    (ofBytes .narrow bs).value = (ofBytes .full bs).value % Nat.pow 2 64 := by
  have hlt : (ofBytes .narrow bs).value < Nat.pow 256 8 := (ofBytes .narrow bs).value_lt
  have hpow : Nat.pow 2 64 = Nat.pow 256 8 := by decide
  rw [value_full h, hpow, Nat.add_mul_mod_self_left, Nat.mod_eq_of_lt hlt]

/-- The widths agree just where the narrow one drops nothing. -/
theorem value_narrow_eq_full_iff (h : bs.length = 16) :
    (ofBytes .narrow bs).value = (ofBytes .full bs).value ↔ bs.drop 8 = List.replicate 8 0 := by
  have hlength : (bs.drop 8).length = 8 := by rw [List.length_drop, h]
  have hzero : Bytes.ofLE (bs.drop 8) = 0 ↔ bs.drop 8 = List.replicate (bs.drop 8).length 0 :=
    Bytes.ofLE_eq_zero_iff
  rw [hlength] at hzero
  have hpos : 0 < Nat.pow 256 8 := by decide
  rw [← hzero, value_full h]
  constructor
  · intro heq
    have hproduct : Nat.pow 256 8 * Bytes.ofLE (bs.drop 8) = 0 := by omega
    exact (Nat.mul_eq_zero.mp hproduct).resolve_left (Nat.ne_of_gt hpos)
  · intro hhigh
    rw [hhigh, Nat.mul_zero, Nat.add_zero]

theorem text_eq_iff {width width' : CounterWidth} {c : Counter width} {c' : Counter width'} :
    c.text {} = c'.text {} ↔ c.value = c'.value := by
  rw [text, text, Text.Padding.apply_default, Text.Padding.apply_default, numeral_eq, numeral_eq]
  exact ⟨Text.decimal_injective, fun h => by rw [h]⟩

/-- What the narrow counter of these bytes has to do with the full one. -/
structure Narrows (bs : Bytes) : Prop where
  value_eq : (ofBytes .narrow bs).value = (ofBytes .full bs).value % Nat.pow 2 64
  written_eq : ∀ cells : List Char, writeDecimal (ofBytes .narrow bs).value cells =
    writeDecimal (ofBytes .full (clearHigh bs)).value cells
  /-- Twenty cells are enough for every narrow counter. -/
  fits : ∀ scratch : List Char, scratch.length = 20 →
    (writeDecimal (ofBytes .narrow bs).value scratch).1 = some (ofBytes .narrow bs).numeral
  text_eq : ∀ place : Text.Padding,
    (ofBytes .narrow bs).text place = (ofBytes .full (clearHigh bs)).text place
  text_eq_full_iff : (ofBytes .narrow bs).text {} = (ofBytes .full bs).text {} ↔
    bs.drop 8 = List.replicate 8 0

/-- At the narrow width a counter is its low eight bytes and nothing else. -/
theorem narrows_of_length (h : bs.length = 16) : Narrows bs where
  value_eq := value_narrow h
  written_eq cells := by rw [value_clearHigh h]
  fits scratch hscratch := by
    rw [(ofBytes .narrow bs).writeDecimal_scratch hscratch, numeral_eq]
  text_eq place := by
    rw [text, text, numeral_eq, numeral_eq, value_clearHigh h]
  text_eq_full_iff := by rw [text_eq_iff, value_narrow_eq_full_iff h]

/-- The lowest of the high bytes is lost, which leaves seven. -/
theorem narrows_of_length_wrapped :
    let bs : Bytes := [7, 0, 0, 0, 0, 0, 0, 0, 1, 0, 0, 0, 0, 0, 0, 0]
    bs.length = 16 ∧ Narrows bs ∧ (ofBytes .narrow bs).text {} = "7" ∧
      (ofBytes .full bs).text {} = "18446744073709551623" := by
  refine ⟨rfl, narrows_of_length rfl, ?_, ?_⟩
  · decide
  · decide

end DriveLog.Counter
