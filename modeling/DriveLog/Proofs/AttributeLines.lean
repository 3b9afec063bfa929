import DriveLog.Bytes.Agreement
import DriveLog.Proofs.DistinctLabels
import DriveLog.Proofs.RecordLayouts
import DriveLog.Text.Rounding

/-! Lines of SMART attributes. The raw value is one number of 48 bits, and the parts that some
keys divide it into are its digits to a larger base. Media wear is rounded to thousandths, and
binary64 holds every number on the way there. A line tells the key and the normalized value, and
the raw value as well unless the key rounds it or leaves a part of it out. -/

namespace DriveLog

open Text

/-! ## Numerals in a column -/

namespace Text

theorem length_padLeft_decimal_byte {n : Nat} (h : n < 256) :
    (padLeft 3 ' ' (decimal n)).length = 3 :=
  length_padLeft_toDigits (by decide) (by decide) ' ' (Nat.lt_trans h (by decide))

/-- Blanks before a numeral end at its first digit. -/
theorem padLeft_decimal_inj {width m n : Nat} :
    padLeft width ' ' (decimal m) = padLeft width ' ' (decimal n) ↔ m = n := by
  refine ⟨fun h => ?_, fun h => h ▸ rfl⟩
  have hlists := congrArg String.toList h
  rw [toList_padLeft, toList_padLeft] at hlists
  have hblank : ∀ k, ∀ c ∈ List.replicate k ' ', c.isDigit = false := by
    intro k c hc
    rw [List.eq_of_mem_replicate hc]
    rfl
  have hdigit : ∀ n, ∀ c ∈ (decimal n).toList.head?, c.isDigit = true :=
    fun n c hc => isDigit_of_mem_decimal (List.mem_of_mem_head? hc)
  obtain ⟨_, hnumerals⟩ :=
    append_inj_of_mark (hblank _) (hblank _) (hdigit m) (hdigit n) hlists
  exact decimal_injective (String.toList_inj.mp hnumerals)

end Text

namespace Intel.Attribute

variable {bs bs' : Bytes} {a a' : Attribute}

/-! ## Raw values -/

theorem raw_fieldsOf (bs : Bytes) : (fieldsOf bs).raw = bs.numberAt 5 6 := by
  have hlength : (bs.slice 5 6).length ≤ 8 := by
    rw [Bytes.length_slice]
    omega
  exact Bytes.toNat_toWord hlength

theorem rawPart_fieldsOf {start width : Nat} (hsize : 12 ≤ bs.length) (h : start + width ≤ 6) :
    (fieldsOf bs).rawPart start width =
      (fieldsOf bs).raw / Nat.pow 256 start % Nat.pow 256 width := by
  have hpart : (fieldsOf bs).rawPart start width = bs.numberAt (5 + start) width :=
    Bytes.numberAt_slice h bs
  rw [hpart, raw_fieldsOf, Bytes.numberAt_div_mod h (by omega)]

theorem raw_lt (bs : Bytes) : (fieldsOf bs).raw < 0x1000000000000 := by
  rw [raw_fieldsOf]
  exact Bytes.numberAt_lt 5 6 bs

theorem rawText_wear_leveling (h : a.key = 0xad) : a.rawText =
    "min: " ++ decimal (a.rawPart 0 2) ++ " max: " ++ decimal (a.rawPart 2 2) ++ " ave: " ++
      decimal (a.rawPart 4 2) := by
  simp only [rawText, h]

theorem rawText_media_wear (h : a.key = 0xe2) : a.rawText = fixed 3 a.raw 1024 ++ "%" := by
  simp only [rawText, h]

theorem rawText_thermal_throttle (h : a.key = 0xea) : a.rawText =
    decimal (a.rawPart 0 1) ++ "% " ++ decimal (a.rawPart 1 4) ++ " times" := by
  simp only [rawText, h]

theorem rawText_other (hwear : a.key ≠ 0xad) (hmedia : a.key ≠ 0xe2) (hthermal : a.key ≠ 0xea) :
    a.rawText = decimal a.raw := by
  unfold rawText
  split
  · exact absurd ‹_› hwear
  · exact absurd ‹_› hmedia
  · exact absurd ‹_› hthermal
  · rfl

/-! ## Media wear -/

/-- A percentage with three decimal places. -/
def percent (thousandths : Nat) : String :=
  decimal (thousandths / 1000) ++ "." ++ padLeft 3 '0' (decimal (thousandths % 1000)) ++ "%"

theorem exists_percent (h : a.key = 0xe2) :
    ∃ thousandths, Rounds (a.raw * 1000 / 1024) thousandths ∧ a.rawText = percent thousandths := by
  obtain ⟨n, hrounds, htext⟩ := exists_rounds_fixed 3 a.raw (show 0 < 1024 by decide)
  refine ⟨n, by exact_mod_cast hrounds, ?_⟩
  rw [rawText_media_wear h, htext]
  rfl

/-- A percentage grows with the raw value, of which each step is less than a thousandth. -/
theorem exists_percent_le (h : a.key = 0xe2) (h' : a'.key = 0xe2) (hraw : a.raw ≤ a'.raw) :
    ∃ thousandths thousandths', a.rawText = percent thousandths ∧
      a'.rawText = percent thousandths' ∧ thousandths ≤ thousandths' := by
  obtain ⟨n, hrounds, htext⟩ := exists_percent h
  obtain ⟨n', hrounds', htext'⟩ := exists_percent h'
  have hcast : (a.raw : ℚ) ≤ a'.raw := by exact_mod_cast hraw
  refine ⟨n, n', htext, htext', hrounds.mono hrounds' ?_⟩
  linarith

/-- A number that binary64 makes of a raw value and then of its quotient, rounding both times. -/
def IsQuotient (raw : Nat) (y : Binary64) : Prop :=
  ∃ x : Binary64, x.IsNearest raw ∧ y.IsNearest (x.value / 1024)

theorem exists_values {raw : Nat} (h : raw < 0x1000000000000) :
    (∃ x : Binary64, x.value = raw) ∧ ∃ y : Binary64, y.value = raw / 1024 := by
  have hsmall : raw < 0x20000000000000 := Nat.lt_trans h (by decide)
  obtain ⟨x, hx⟩ := Binary64.exists_value_eq hsmall (Nat.zero_le 1074)
  obtain ⟨y, hy⟩ := Binary64.exists_value_eq hsmall (show 10 ≤ 1074 by decide)
  rw [Nat.pow_eq] at hx hy
  norm_num at hx hy
  exact ⟨⟨x, hx⟩, y, hy⟩

/-- Both numbers are in the format, so neither is moved. -/
theorem IsQuotient.value_eq {raw : Nat} {y : Binary64} (h : raw < 0x1000000000000)
    (hy : IsQuotient raw y) : y.value = raw / 1024 := by
  obtain ⟨x, hx, hy⟩ := hy
  obtain ⟨⟨number, hnumber⟩, quotient, hquotient⟩ := exists_values h
  rw [← hnumber] at hx
  rw [hx.value_eq, hnumber, ← hquotient] at hy
  rw [hy.value_eq, hquotient]

theorem exists_isQuotient {raw : Nat} (h : raw < 0x1000000000000) :
    ∃ y : Binary64, IsQuotient raw y := by
  obtain ⟨⟨number, hnumber⟩, quotient, hquotient⟩ := exists_values h
  refine ⟨quotient, number, ?_, ?_⟩
  · rw [← hnumber]
    exact number.isNearest_value
  · rw [hnumber, ← hquotient]
    exact quotient.isNearest_value

/-- What binary64 makes of the quotient is printed like the quotient itself. -/
theorem rawText_of_isQuotient {y : Binary64} (hkey : a.key = 0xe2)
    (h : a.raw < 0x1000000000000) (hy : IsQuotient a.raw y) :
    a.rawText = fixed 3 y.magnitude.num y.magnitude.den ++ "%" := by
  have hpos : 0 < y.magnitude.den := Nat.pow_pos (by decide)
  have hvalue : ((a.raw : ℚ) / (1024 : Nat)) = y.magnitude.num / y.magnitude.den := by
    rw [← Binary64.value, hy.value_eq h]
    norm_num
  rw [rawText_media_wear hkey, fixed_congr 3 (by decide) hpos hvalue]

/-! ## Lines -/

/-- What stands at the end of a line, by the key and the raw value. -/
structure TellsRaw (key raw : Nat) (text : String) : Prop where
  wear_leveling : key = 0xad → text = "min: " ++ decimal (raw % 0x10000) ++
    " max: " ++ decimal (raw / 0x10000 % 0x10000) ++ " ave: " ++ decimal (raw / 0x100000000)
  thermal_throttle : key = 0xea → text =
    decimal (raw % 0x100) ++ "% " ++ decimal (raw / 0x100 % 0x100000000) ++ " times"
  media_wear : key = 0xe2 →
    ∃ thousandths, Rounds (raw * 1000 / 1024) thousandths ∧ text = percent thousandths
  exists_quotient : ∃ y : Binary64, IsQuotient raw y
  quotient_exact : ∀ y : Binary64, IsQuotient raw y → y.value = raw / 1024 ∧
    (key = 0xe2 → text = fixed 3 y.magnitude.num y.magnitude.den ++ "%")
  other : key ≠ 0xad → key ≠ 0xe2 → key ≠ 0xea → text = decimal raw

theorem wear_parts (hsize : 12 ≤ bs.length) :
    (fieldsOf bs).rawPart 0 2 = (fieldsOf bs).raw % 0x10000 ∧
      (fieldsOf bs).rawPart 2 2 = (fieldsOf bs).raw / 0x10000 % 0x10000 ∧
      (fieldsOf bs).rawPart 4 2 = (fieldsOf bs).raw / 0x100000000 := by
  refine ⟨?_, rawPart_fieldsOf hsize (by decide), ?_⟩
  · rw [rawPart_fieldsOf hsize (by decide)]
    exact congrArg (· % 0x10000) (Nat.div_one _)
  · have hlt := raw_lt bs
    have hhigh : (fieldsOf bs).raw / 0x100000000 < 0x10000 := by omega
    rw [rawPart_fieldsOf hsize (by decide)]
    exact Nat.mod_eq_of_lt hhigh

theorem throttle_parts (hsize : 12 ≤ bs.length) :
    (fieldsOf bs).rawPart 0 1 = (fieldsOf bs).raw % 0x100 ∧
      (fieldsOf bs).rawPart 1 4 = (fieldsOf bs).raw / 0x100 % 0x100000000 := by
  refine ⟨?_, rawPart_fieldsOf hsize (by decide)⟩
  rw [rawPart_fieldsOf hsize (by decide)]
  exact congrArg (· % 0x100) (Nat.div_one _)

theorem tellsRaw_fieldsOf (hsize : 12 ≤ bs.length) :
    TellsRaw (fieldsOf bs).key (fieldsOf bs).raw (fieldsOf bs).rawText where
  wear_leveling h := by
    obtain ⟨hmin, hmax, haverage⟩ := wear_parts hsize
    rw [rawText_wear_leveling h, hmin, hmax, haverage]
  thermal_throttle h := by
    obtain ⟨hpercent, htimes⟩ := throttle_parts hsize
    rw [rawText_thermal_throttle h, hpercent, htimes]
  media_wear := exists_percent
  exists_quotient := exists_isQuotient (raw_lt bs)
  quotient_exact y hy :=
    ⟨hy.value_eq (raw_lt bs), fun hkey => rawText_of_isQuotient hkey (raw_lt bs) hy⟩
  other := rawText_other

/-- Every key that divides the raw value without a loss, or not at all, has it told. -/
theorem raw_eq_of_text {key raw raw' : Nat} {text : String} (h : TellsRaw key raw text)
    (h' : TellsRaw key raw' text) (hmedia : key ≠ 0xe2) (hthermal : key ≠ 0xea) : raw = raw' := by
  by_cases hwear : key = 0xad
  · have htext := (h.wear_leveling hwear).symm.trans (h'.wear_leveling hwear)
    simp only [String.append_assoc, String.append_right_inj] at htext
    obtain ⟨hmin, htext⟩ := (decimal_append_inj (by simp) (by simp)).mp htext
    rw [String.append_right_inj] at htext
    obtain ⟨hmax, htext⟩ := (decimal_append_inj (by simp) (by simp)).mp htext
    rw [String.append_right_inj, decimal_inj] at htext
    omega
  · have htext := (h.other hwear hmedia hthermal).symm.trans (h'.other hwear hmedia hthermal)
    exact decimal_injective htext

theorem distinct_names : names.Distinct := by decide

theorem line_inj {bs bs' : Bytes} : (fieldsOf bs).line = (fieldsOf bs').line ↔
    (fieldsOf bs).key = (fieldsOf bs').key ∧ (fieldsOf bs).normalized = (fieldsOf bs').normalized ∧
      (fieldsOf bs).rawText = (fieldsOf bs').rawText := by
  have hbyte : ∀ (bs : Bytes) (offset : Nat), bs.numberAt offset 1 < 256 :=
    fun bs offset => Bytes.numberAt_lt offset 1 bs
  have hkey : ∀ bs : Bytes, (fieldsOf bs).key < 0x10000 :=
    fun bs => Nat.lt_trans (hbyte bs 0) (by decide)
  have hcolumn : ∀ bs : Bytes, (padLeft 3 ' ' (decimal (fieldsOf bs).normalized)).length = 3 :=
    fun bs => length_padLeft_decimal_byte (hbyte bs 3)
  unfold line label
  rw [distinct_names.field_inj (Nat.zero_le 2) (hkey bs) (hkey bs'), String.append_assoc,
    String.append_assoc, append_inj_of_length ((hcolumn bs).trans (hcolumn bs').symm),
    padLeft_decimal_inj, String.append_right_inj]

/-- How a line shows an attribute of twelve bytes. -/
structure ShowsBytes (bs : Bytes) (a : Attribute) : Prop where
  raw_eq : a.raw = bs.numberAt 5 6
  raw_lt : a.raw < 0x1000000000000
  testBit_raw : ∀ bit < 48, a.raw.testBit bit = (bs.numberAt (5 + bit / 8) 1).testBit (bit % 8)
  line_eq : a.line = padRight 32 (names.label (bs.numberAt 0 1)).text ++ ": " ++
    padLeft 3 ' ' (decimal (bs.numberAt 3 1)) ++ " " ++ a.rawText
  tellsRaw : TellsRaw (bs.numberAt 0 1) a.raw a.rawText

theorem line_eq (a : Attribute) : a.line = padRight 32 (names.label a.key).text ++ ": " ++
    padLeft 3 ' ' (decimal a.normalized) ++ " " ++ a.rawText := by
  have hindent : spaces 0 ++ a.label.text = a.label.text := String.empty_append
  rw [line, Report.field, Report.column, hindent, label]
  simp only [String.append_assoc]

theorem showsBytes_fieldsOf (hsize : 12 ≤ bs.length) : ShowsBytes bs (fieldsOf bs) where
  raw_eq := raw_fieldsOf bs
  raw_lt := raw_lt bs
  testBit_raw bit hbit := by
    rw [raw_fieldsOf]
    exact Bytes.testBit_numberAt (by omega) hbit
  line_eq := line_eq (fieldsOf bs)
  tellsRaw := tellsRaw_fieldsOf hsize

theorem ofBytes?_eq_ok_iff : Record.ofBytes? bs = .ok a ↔ 12 ≤ bs.length ∧ a = fieldsOf bs := by
  rcases Nat.lt_or_ge bs.length 12 with hlt | hle
  · rw [Record.ofBytes?_of_lt hlt]
    exact iff_of_false nofun fun h => absurd h.1 (Nat.not_le.mpr hlt)
  · have hsize : Record.size Attribute ≤ bs.length := hle
    rw [Record.ofBytes?_of_le hsize, Record.decode_eq, and_iff_right hle, Except.ok.injEq, eq_comm]
    rfl

/-- Lines of attributes show the bytes exactly: each on its own, and each two in comparison. -/
theorem line_exact :
    (∀ bs : Bytes, 12 ≤ bs.length → ∃ a, Record.ofBytes? bs = .ok a ∧ ShowsBytes bs a) ∧
    ∀ (bs bs' : Bytes) (a a' : Attribute),
      Record.ofBytes? bs = .ok a → Record.ofBytes? bs' = .ok a' →
      (a.line = a'.line → a.key = a'.key ∧ a.normalized = a'.normalized ∧
        (a.key ≠ 0xe2 → a.key ≠ 0xea → a.raw = a'.raw)) ∧
      (a.key = 0xe2 → a'.key = 0xe2 → a.raw ≤ a'.raw → ∃ thousandths thousandths',
        a.rawText = percent thousandths ∧ a'.rawText = percent thousandths' ∧
          thousandths ≤ thousandths') := by
  constructor
  · intro bs hsize
    exact ⟨fieldsOf bs, ofBytes?_eq_ok_iff.mpr ⟨hsize, rfl⟩, showsBytes_fieldsOf hsize⟩
  · intro bs bs' a a' h h'
    obtain ⟨hsize, rfl⟩ := ofBytes?_eq_ok_iff.mp h
    obtain ⟨hsize', rfl⟩ := ofBytes?_eq_ok_iff.mp h'
    refine ⟨fun hline => ?_, exists_percent_le⟩
    obtain ⟨hkey, hnormalized, htext⟩ := line_inj.mp hline
    refine ⟨hkey, hnormalized, ?_⟩
    have htells := tellsRaw_fieldsOf hsize'
    rw [← hkey, ← htext] at htells
    exact raw_eq_of_text (tellsRaw_fieldsOf hsize) htells

/-- One sixteenth of a percent lies in the middle of two thousandths. -/
theorem line_exact_tie :
    let record (key low : UInt8) : Bytes := [key, 0, 0, 100, 0, low, 0, 0, 0, 0, 0, 0]
    (∃ a a' : Attribute, Record.ofBytes? (record 0xe2 64) = .ok a ∧
      Record.ofBytes? (record 0xe2 192) = .ok a' ∧
      a.line = "Timed: Media Wear               : 100 0.062%" ∧
      a'.line = "Timed: Media Wear               : 100 0.188%") ∧
    ∃ a a' : Attribute, Record.ofBytes? (record 0xf1 64) = .ok a ∧
      Record.ofBytes? (record 0xf1 192) = .ok a' ∧ a.line ≠ a'.line := by
  intro record
  obtain ⟨hone, htwo⟩ := line_exact
  constructor
  · obtain ⟨a, h, -⟩ := hone (record 0xe2 64) (by decide)
    obtain ⟨a', h', -⟩ := hone (record 0xe2 192) (by decide)
    refine ⟨a, a', h, h', ?_, ?_⟩
    · obtain ⟨-, rfl⟩ := ofBytes?_eq_ok_iff.mp h
      decide
    · obtain ⟨-, rfl⟩ := ofBytes?_eq_ok_iff.mp h'
      decide
  · obtain ⟨a, h, hshows⟩ := hone (record 0xf1 64) (by decide)
    obtain ⟨a', h', hshows'⟩ := hone (record 0xf1 192) (by decide)
    refine ⟨a, a', h, h', fun hline => ?_⟩
    have hraw : a.raw ≠ a'.raw := by
      rw [hshows.raw_eq, hshows'.raw_eq]
      decide
    obtain ⟨-, rfl⟩ := ofBytes?_eq_ok_iff.mp h
    exact hraw (((htwo _ _ _ _ h h').1 hline).2.2 (by decide) (by decide))

end Intel.Attribute

end DriveLog
