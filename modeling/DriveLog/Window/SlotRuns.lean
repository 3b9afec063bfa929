import DriveLog.Window.Series

/-! Runs of slots. A list of records goes on up to the first slot that is not to be kept, so
its length says for each slot before the end that it was, and for the one behind the end, if
there is any, that it was not. A record of the list is made of its own slot alone. -/

namespace DriveLog

/-- Of `count` slots the first `k` hold, and the one behind them does not or there is none. -/
structure RunsTo (holds : Nat → Prop) (count k : Nat) : Prop where
  le : k ≤ count
  before : ∀ i < k, holds i
  ends : k < count → ¬ holds k

theorem RunsTo.congr {holds holds' : Nat → Prop} {count k : Nat} (h : RunsTo holds count k)
    (hiff : ∀ i < count, (holds i ↔ holds' i)) : RunsTo holds' count k where
  le := h.le
  before i hi := (hiff i (Nat.lt_of_lt_of_le hi h.le)).mp (h.before i hi)
  ends hk hholds := h.ends hk ((hiff k hk).mpr hholds)

/-- A run ends in one place. -/
theorem RunsTo.unique {holds : Nat → Prop} {count k k' : Nat} (h : RunsTo holds count k)
    (h' : RunsTo holds count k') : k = k' := by
  rcases Nat.lt_trichotomy k k' with hlt | heq | hlt
  · exact absurd (h'.before k hlt) (h.ends (Nat.lt_of_lt_of_le hlt h'.le))
  · exact heq
  · exact absurd (h.before k' hlt) (h'.ends (Nat.lt_of_lt_of_le hlt h.le))

section Lists

variable {α : Type} {keep : α → Bool} {as : List α} {i : Nat}

theorem length_takeWhile_eq (keep : α → Bool) (as : List α) :
    (as.takeWhile keep).length = as.findIdx fun a => !keep a := by
  rw [List.takeWhile_eq_take_findIdx_not, List.length_take,
    Nat.min_eq_left List.findIdx_le_length]

theorem getElem?_takeWhile (h : i < (as.takeWhile keep).length) :
    (as.takeWhile keep)[i]? = as[i]? := by
  rw [length_takeWhile_eq] at h
  rw [List.takeWhile_eq_take_findIdx_not, List.getElem?_take_of_lt h]

/-- What ends a list is the element behind all that are kept. -/
theorem head?_dropWhile (keep : α → Bool) (as : List α) :
    (as.dropWhile keep).head? = as[(as.takeWhile keep).length]? := by
  rw [List.dropWhile_eq_drop_findIdx_not, List.head?_drop, length_takeWhile_eq]

theorem runsTo_takeWhile (keep : α → Bool) (as : List α) :
    RunsTo (fun i => ∃ a, as[i]? = some a ∧ keep a = true) as.length
      (as.takeWhile keep).length where
  le := (List.takeWhile_sublist keep).length_le
  before i hi := by
    rw [length_takeWhile_eq] at hi
    have hlt : i < as.length := Nat.lt_of_lt_of_le hi List.findIdx_le_length
    have hkeep := List.not_of_lt_findIdx hi
    exact ⟨as[i], List.getElem?_eq_getElem hlt, by simpa using hkeep⟩
  ends hlt := by
    rintro ⟨a, hget, hkeep⟩
    rw [length_takeWhile_eq] at hlt hget
    have hstop := @List.findIdx_getElem _ _ _ hlt
    rw [(List.getElem_eq_iff hlt).mpr hget, hkeep] at hstop
    cases hstop

end Lists

namespace Record

variable {α : Type} [Record α] {keep : α → Bool} {holds : Nat → Prop} {bs : Bytes} {i : Nat}

theorem length_slots (bs : Bytes) : (slots α bs).length = bs.length / size α := by
  rw [slots, List.length_map, Bytes.length_slots]

/-- The record of a slot is made of the slot alone. -/
theorem getElem?_slots (h : i < bs.length / size α) :
    (slots α bs)[i]? = some (decode (bs.slice (size α * i) (size α))) := by
  rw [slots, List.getElem?_map, Bytes.getElem?_slots h]
  rfl

theorem slots_take (n : Nat) (bs : Bytes) :
    slots α (bs.take n) = (slots α bs).take (n / size α) := by
  rw [slots, slots, Bytes.slots_take, List.map_take]

/-- A list of records goes on while the slots hold what it keeps them for. -/
theorem runsTo_slots
    (hiff : ∀ i, keep (decode (bs.slice (size α * i) (size α))) = true ↔ holds i) :
    RunsTo holds (bs.length / size α) ((slots α bs).takeWhile keep).length := by
  have hruns := runsTo_takeWhile keep (slots α bs)
  rw [length_slots] at hruns
  apply hruns.congr
  intro i hi
  simp [getElem?_slots hi, hiff]

theorem getElem?_kept (h : i < ((slots α bs).takeWhile keep).length) :
    ((slots α bs).takeWhile keep)[i]? =
      some (decode (bs.slice (size α * i) (size α))) := by
  have hle := (List.takeWhile_sublist (l := slots α bs) keep).length_le
  rw [length_slots] at hle
  rw [getElem?_takeWhile h, getElem?_slots (Nat.lt_of_lt_of_le h hle)]

/-- What ends a list of records is the record of the slot behind them. -/
theorem head?_dropped_of_lt (h : ((slots α bs).takeWhile keep).length < bs.length / size α) :
    ((slots α bs).dropWhile keep).head? =
      some (decode
        (bs.slice (size α * ((slots α bs).takeWhile keep).length) (size α))) := by
  rw [head?_dropWhile, getElem?_slots h]

theorem head?_dropped_of_eq (h : ((slots α bs).takeWhile keep).length = bs.length / size α) :
    ((slots α bs).dropWhile keep).head? = none := by
  rw [head?_dropWhile, h, List.getElem?_eq_none (Nat.le_of_eq (length_slots bs))]

end Record

end DriveLog
