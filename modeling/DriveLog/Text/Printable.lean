import DriveLog.Bytes.LittleEndian
import DriveLog.Text.Padding
import DriveLog.Text.Rounded

/-! Printable text. Its characters are those of ASCII from the space to the tilde, so it
holds no control character and no line end. Numerals are printable whatever their number,
and filling a text leaves it so. In UTF-8 each ASCII character is one byte. -/

namespace DriveLog.Text

def PrintableChar (c : Char) : Prop := 0x20 ≤ c.toNat ∧ c.toNat ≤ 0x7e

instance (c : Char) : Decidable (PrintableChar c) := inferInstanceAs (Decidable (_ ∧ _))

def Printable (s : String) : Prop := ∀ c ∈ s.toList, PrintableChar c

variable {s t : String} {width n : Nat} {c fill : Char}

/-! ## Bytes -/

/-- The bytes of a text in UTF-8. -/
def utf8 (s : String) : Bytes := s.toByteArray.data.toList

theorem utf8_eq_flatMap (s : String) : utf8 s = s.toList.flatMap String.utf8EncodeChar := by
  rw [utf8, ← String.utf8Encode_toList, List.utf8Encode, List.toList_data_toByteArray]

@[simp] theorem utf8_append (s t : String) : utf8 (s ++ t) = utf8 s ++ utf8 t := by
  simp only [utf8_eq_flatMap, String.toList_append, List.flatMap_append]

theorem utf8_join (pieces : List String) : utf8 (String.join pieces) = pieces.flatMap utf8 := by
  induction pieces with
  | nil => rfl
  | cons piece rest ih => rw [String.join_cons, utf8_append, ih, List.flatMap_cons]

/-- The bytes of a text are those of its characters. -/
theorem mem_utf8 {b : UInt8} : b ∈ utf8 s ↔ ∃ c ∈ s.toList, b ∈ String.utf8EncodeChar c := by
  rw [utf8_eq_flatMap, List.mem_flatMap]

/-- An ASCII character is one byte. -/
theorem utf8_eq_map (h : ∀ c ∈ s.toList, c.toNat < 0x80) :
    utf8 s = s.toList.map Char.toUInt8 := by
  rw [utf8_eq_flatMap, List.map_eq_flatMap, List.flatMap_def, List.flatMap_def]
  congr 1
  apply List.map_congr_left
  intro c hc
  apply String.utf8EncodeChar_eq_singleton
  rw [Char.utf8Size_eq_one_iff, UInt32.le_iff_toNat_le]
  exact Nat.le_of_lt_succ (h c hc)

theorem length_utf8 (h : ∀ c ∈ s.toList, c.toNat < 0x80) : (utf8 s).length = s.length := by
  rw [utf8_eq_map h, List.length_map, String.length_toList]

theorem utf8_take (h : ∀ c ∈ s.toList, c.toNat < 0x80) (n : Nat) :
    utf8 (String.ofList (s.toList.take n)) = (utf8 s).take n := by
  have htake : ∀ c ∈ (String.ofList (s.toList.take n)).toList, c.toNat < 0x80 := by
    intro c hc
    rw [String.toList_ofList] at hc
    exact h c (List.mem_of_mem_take hc)
  rw [utf8_eq_map h, utf8_eq_map htake, String.toList_ofList, List.map_take]

theorem toNat_toUInt8 (h : c.toNat < 0x80) : c.toUInt8.toNat = c.toNat := by
  have hmod : c.toUInt8.toNat = c.toNat % 2 ^ 8 := UInt32.toNat_toUInt8 c.val
  rw [hmod]
  exact Nat.mod_eq_of_lt (by omega)

theorem Printable.ascii (h : Printable s) : ∀ c ∈ s.toList, c.toNat < 0x80 := by
  intro c hc
  exact Nat.lt_of_le_of_lt (h c hc).2 (by decide)

theorem Printable.mem_utf8 {b : UInt8} (h : Printable s) (hb : b ∈ utf8 s) :
    0x20 ≤ b ∧ b ≤ 0x7e := by
  rw [utf8_eq_map h.ascii] at hb
  obtain ⟨c, hc, rfl⟩ := List.mem_map.mp hb
  obtain ⟨hlow, hhigh⟩ := h c hc
  rw [UInt8.le_iff_toNat_le, UInt8.le_iff_toNat_le, toNat_toUInt8 (h.ascii c hc)]
  exact ⟨hlow, hhigh⟩

/-- The last byte of a character beyond ASCII is not one of ASCII. -/
theorem exists_mem_utf8EncodeChar (h : 0x80 ≤ c.toNat) :
    ∃ b ∈ String.utf8EncodeChar c, 0x80 ≤ b.toNat := by
  have hlast : 0x80 ≤ (c.val.toUInt8 &&& 0x3f ||| 0x80).toNat := by
    rw [UInt8.toNat_or]
    exact Nat.right_le_or
  rcases c.utf8Size_eq with hsize | hsize | hsize | hsize
  · rw [Char.utf8Size_eq_one_iff, UInt32.le_iff_toNat_le] at hsize
    exact absurd h (Nat.not_le.mpr (Nat.lt_succ_of_le hsize))
  · rw [String.utf8EncodeChar_eq_cons_cons hsize]
    exact ⟨_, by simp, hlast⟩
  · rw [String.utf8EncodeChar_eq_cons_cons_cons hsize]
    exact ⟨_, by simp, hlast⟩
  · rw [String.utf8EncodeChar_eq_cons_cons_cons_cons hsize]
    exact ⟨_, by simp, hlast⟩

/-- A text is printable if its bytes are. -/
theorem printable_iff_utf8 : Printable s ↔ ∀ b ∈ utf8 s, 0x20 ≤ b ∧ b ≤ 0x7e := by
  constructor
  · intro h b hb
    exact h.mem_utf8 hb
  · intro h c hc
    have hascii : ∀ c ∈ s.toList, c.toNat < 0x80 := by
      intro c hc
      rcases Nat.lt_or_ge c.toNat 0x80 with hlt | hge
      · exact hlt
      · obtain ⟨b, hb, hle⟩ := exists_mem_utf8EncodeChar hge
        have hhigh := (h b (mem_utf8.mpr ⟨c, hc, hb⟩)).2
        rw [UInt8.le_iff_toNat_le] at hhigh
        exact absurd hle (Nat.not_le.mpr (Nat.lt_succ_of_le (Nat.le_succ_of_le hhigh)))
    have hbyte : c.toUInt8 ∈ utf8 s := by
      rw [utf8_eq_map hascii]
      exact List.mem_map_of_mem hc
    obtain ⟨hlow, hhigh⟩ := h _ hbyte
    rw [UInt8.le_iff_toNat_le, toNat_toUInt8 (hascii c hc)] at hlow hhigh
    exact ⟨hlow, hhigh⟩

/-- Decided on the bytes, which come faster out of a text than the characters do. -/
instance (s : String) : Decidable (Printable s) :=
  decidable_of_iff (((utf8 s).all fun b => 0x20 ≤ b && b ≤ 0x7e) = true) (by
    simp [printable_iff_utf8, List.all_eq_true])

/-! ## Composed texts -/

@[simp] theorem printable_append : Printable (s ++ t) ↔ Printable s ∧ Printable t := by
  unfold Printable
  rw [String.toList_append]
  exact List.forall_mem_append

@[simp] theorem printable_spaces (n : Nat) : Printable (spaces n) := by
  intro c hc
  rw [toList_spaces] at hc
  rw [List.eq_of_mem_replicate hc]
  decide

@[simp] theorem printable_padRight : Printable (padRight width s) ↔ Printable s := by
  unfold padRight
  simp

theorem printable_padLeft (hfill : PrintableChar fill) :
    Printable (padLeft width fill s) ↔ Printable s := by
  have hpad : Printable (String.ofList (List.replicate (width - s.length) fill)) := by
    intro c hc
    rw [String.toList_ofList] at hc
    rw [List.eq_of_mem_replicate hc]
    exact hfill
  unfold padLeft
  rw [printable_append, and_iff_right hpad]

@[simp] theorem printable_padLeft_zero : Printable (padLeft width '0' s) ↔ Printable s :=
  printable_padLeft (by decide)

@[simp] theorem printable_padLeft_space : Printable (padLeft width ' ' s) ↔ Printable s :=
  printable_padLeft (by decide)

theorem printable_join {pieces : List String} (h : ∀ s ∈ pieces, Printable s) :
    Printable (String.join pieces) := by
  intro c hc
  rw [String.toList_join, List.mem_flatMap] at hc
  obtain ⟨s, hs, hmem⟩ := hc
  exact h s hs c hmem

/-! ## Numerals -/

theorem printableChar_digitChar (h : n < 16) : PrintableChar (Nat.digitChar n) := by
  have hall : ∀ d < 16, PrintableChar (Nat.digitChar d) := by decide
  exact hall n h

theorem printableChar_of_mem_toDigits {base : Nat} (hlow : 1 < base) (hhigh : base ≤ 16)
    (h : c ∈ Nat.toDigits base n) : PrintableChar c := by
  induction n using Nat.strongRecOn with
  | ind n ih =>
    rw [Nat.toDigits_eq_if hlow] at h
    split at h
    · rename_i hlt
      rw [List.mem_singleton.mp h]
      exact printableChar_digitChar (by omega)
    · rcases List.mem_append.mp h with h | h
      · exact ih (n / base) (Nat.div_lt_self (by omega) hlow) h
      · have hlt := Nat.mod_lt n (Nat.zero_lt_of_lt hlow)
        rw [List.mem_singleton.mp h]
        exact printableChar_digitChar (by omega)

@[simp] theorem printable_decimal (n : Nat) : Printable (decimal n) := by
  intro c hc
  rw [toList_decimal] at hc
  exact printableChar_of_mem_toDigits (by decide) (by decide) hc

@[simp] theorem printable_hex (n : Nat) : Printable (hex n) := by
  intro c hc
  rw [toList_hex] at hc
  exact printableChar_of_mem_toDigits (by decide) (by decide) hc

@[simp] theorem printable_hexDigits (width n : Nat) : Printable (hexDigits width n) :=
  printable_padLeft_zero.mpr (printable_hex n)

@[simp] theorem printable_hexWord (width n : Nat) : Printable (hexWord width n) :=
  printable_append.mpr ⟨by decide, printable_hexDigits width n⟩

@[simp] theorem printable_fixed (places num den : Nat) : Printable (fixed places num den) := by
  unfold fixed
  simp +decide

/-- Only the sign and the digits of a binary64 value are shown. -/
@[simp] theorem printable_fixedFloat (places : Nat) (x : Float) :
    Printable (fixedFloat places x) := by
  unfold fixedFloat
  rw [printable_append]
  refine ⟨?_, printable_fixed _ _ _⟩
  split <;> decide

end DriveLog.Text
