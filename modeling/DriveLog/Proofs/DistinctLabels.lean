import Mathlib.Data.List.Nodup
import DriveLog.Proofs.DistinctReports

/-! Labels read back. A label is filled with blanks to its column, and the value stands behind
the column, so a label that fits and ends in no blank is told with its value. The names of a
table are told from each other and from the labels that are made from keys, so a label tells
its key. -/

namespace DriveLog

open Text

/-! ## Filled texts -/

namespace Text

variable {s t : String} {width m n : Nat}

/-- A text that ends in no blank. -/
def Trimmed (s : String) : Prop := s.toList.getLast? ≠ some ' '

instance (s : String) : Decidable (Trimmed s) := inferInstanceAs (Decidable (_ ≠ _))

theorem padRight_inj (h : Trimmed s) (h' : Trimmed t) :
    padRight width s = padRight width t ↔ s = t := by
  refine ⟨fun heq => ?_, congrArg (padRight width)⟩
  have hlists := congrArg (fun s => s.toList.reverse) heq
  simp only [toList_padRight, List.reverse_append, List.reverse_replicate] at hlists
  -- Read from its end, a filled text is blanks up to the first character of another kind.
  have hfill : ∀ k, ∀ c ∈ List.replicate k ' ', (c != ' ') = false := by
    intro k c hc
    rw [List.eq_of_mem_replicate hc]
    rfl
  have hend : ∀ {s : String}, Trimmed s → ∀ c ∈ s.toList.reverse.head?, (c != ' ') = true := by
    intro s hs c hc
    rw [List.head?_reverse] at hc
    rw [bne_iff_ne]
    intro hblank
    exact hs (hblank ▸ hc)
  obtain ⟨_, hback⟩ := append_inj_of_mark (hfill _) (hfill _) (hend h) (hend h') hlists
  exact String.toList_inj.mp (List.reverse_inj.mp hback)

theorem padRight_spaces (width n : Nat) (s : String) :
    padRight width (spaces n ++ s) = spaces n ++ padRight (width - n) s := by
  rw [padRight, padRight, String.length_append, length_spaces, Nat.sub_sub, String.append_assoc]

theorem length_hexWord_le (h : n < 0x10000) : (hexWord 1 n).length ≤ 6 := by
  have hdigits : (Nat.toDigits 16 n).length ≤ 4 :=
    (Nat.length_toDigits_le_iff (by decide) (by decide)).mpr h
  have hmarker : "0x".length = 2 := rfl
  rw [hexWord, String.length_append, hmarker, hexDigits, length_padLeft, ← String.length_toList,
    toList_hex]
  omega

theorem getLast?_toDigits (n : Nat) :
    (Nat.toDigits 16 n).getLast? = some (Nat.digitChar (n % 16)) := by
  rw [Nat.toDigits_eq_if (by decide)]
  split
  · rename_i hlt
    rw [Nat.mod_eq_of_lt hlt]
    rfl
  · rw [List.getLast?_concat]

theorem trimmed_append_hexWord (s : String) (n : Nat) : Trimmed (s ++ hexWord 1 n) := by
  have hdigit : ∀ d < 16, Nat.digitChar d ≠ ' ' := by decide
  have hlast : (s ++ hexWord 1 n).toList.getLast? = some (Nat.digitChar (n % 16)) := by
    rw [hexWord, hexDigits, String.toList_append, String.toList_append, toList_padLeft, toList_hex,
      ← List.append_assoc, ← List.append_assoc, List.getLast?_append, getLast?_toDigits,
      Option.some_or]
  rw [Trimmed, hlast, Ne, Option.some_inj]
  exact hdigit _ (Nat.mod_lt n (by decide))

end Text

/-! ## Labels -/

namespace LabelTable

variable {table : LabelTable} {key key' indent : Nat} {name value value' : String}

/-- No two names of the table are the same, none reads like a label made from a key, and each
can be read back from its column. -/
structure Distinct (table : LabelTable) : Prop where
  nodup : (table.map Prod.snd).Nodup
  not_made : ∀ entry ∈ table, entry.2.toList.take 10 ≠ "Attribute ".toList
  fits : ∀ entry ∈ table, entry.2.length ≤ 30
  trimmed : ∀ entry ∈ table, Trimmed entry.2

instance (table : LabelTable) : Decidable table.Distinct :=
  decidable_of_iff ((table.map Prod.snd).Nodup ∧
    (∀ entry ∈ table, entry.2.toList.take 10 ≠ "Attribute ".toList) ∧
    (∀ entry ∈ table, entry.2.length ≤ 30) ∧ ∀ entry ∈ table, Trimmed entry.2)
    ⟨fun ⟨hnodup, hmade, hfits, htrimmed⟩ => ⟨hnodup, hmade, hfits, htrimmed⟩,
      fun ⟨hnodup, hmade, hfits, htrimmed⟩ => ⟨hnodup, hmade, hfits, htrimmed⟩⟩

theorem mem_of_lookup (h : table.lookup key = some name) : (key, name) ∈ table := by
  obtain ⟨before, after, rfl, _⟩ := List.lookup_eq_some_iff.mp h
  exact List.mem_append_right _ List.mem_cons_self

/-- A label is a name of the table for this key, or it is made from the key. -/
theorem label_cases (table : LabelTable) (key : Nat) :
    (∃ name, (key, name) ∈ table ∧ (table.label key).text = name) ∨
      (table.label key).text = "Attribute " ++ hexWord 1 key := by
  unfold label
  cases h : table.lookup key with
  | none => exact .inr rfl
  | some name => exact .inl ⟨name, mem_of_lookup h, rfl⟩

namespace Distinct

theorem ne_made (h : table.Distinct) (hmem : (key, name) ∈ table) (s : String) :
    name ≠ "Attribute " ++ s := by
  intro heq
  apply h.not_made _ hmem
  show name.toList.take 10 = _
  rw [heq, String.toList_append]
  rfl

/-- A label tells its key. -/
theorem text_inj (h : table.Distinct) :
    (table.label key).text = (table.label key').text ↔ key = key' := by
  refine ⟨fun heq => ?_, fun heq => heq ▸ rfl⟩
  rcases table.label_cases key with ⟨name, hmem, htext⟩ | htext
  · rcases table.label_cases key' with ⟨name', hmem', htext'⟩ | htext'
    · obtain rfl : name = name' := htext.symm.trans (heq.trans htext')
      have hentry := List.inj_on_of_nodup_map h.nodup hmem hmem' rfl
      exact congrArg Prod.fst hentry
    · exact absurd (htext.symm.trans (heq.trans htext')) (h.ne_made hmem _)
  · rcases table.label_cases key' with ⟨name', hmem', htext'⟩ | htext'
    · exact absurd (htext'.symm.trans (heq.symm.trans htext)) (h.ne_made hmem' _)
    · rwa [htext, htext', String.append_right_inj, hexWord_inj] at heq

theorem length_text_le (h : table.Distinct) (hkey : key < 0x10000) :
    (table.label key).text.length ≤ 30 := by
  rcases table.label_cases key with ⟨name, hmem, htext⟩ | htext
  · rw [htext]
    exact h.fits (key, name) hmem
  · have hlength := length_hexWord_le hkey
    have hmade : "Attribute ".length = 10 := rfl
    rw [htext, String.length_append, hmade]
    omega

theorem trimmed_text (h : table.Distinct) (key : Nat) : Trimmed (table.label key).text := by
  rcases table.label_cases key with ⟨name, hmem, htext⟩ | htext
  · rw [htext]
    exact h.trimmed (key, name) hmem
  · rw [htext]
    exact trimmed_append_hexWord _ _

/-- A line with a label tells the key and the value. -/
theorem field_inj (h : table.Distinct) (hindent : indent ≤ 2) (hkey : key < 0x10000)
    (hkey' : key' < 0x10000) :
    Report.field indent (table.label key).text value =
      Report.field indent (table.label key').text value' ↔ key = key' ∧ value = value' := by
  have hlength : ∀ {key : Nat}, key < 0x10000 →
      (padRight (32 - indent) (table.label key).text).length = 32 - indent := by
    intro key hkey
    have hle := h.length_text_le hkey
    rw [length_padRight]
    omega
  unfold Report.field Report.column
  rw [padRight_spaces, padRight_spaces, String.append_assoc, String.append_assoc,
    String.append_right_inj, append_inj_of_length ((hlength hkey).trans (hlength hkey').symm),
    padRight_inj (h.trimmed_text key) (h.trimmed_text key'), h.text_inj, String.append_right_inj]

end Distinct

end LabelTable

end DriveLog
