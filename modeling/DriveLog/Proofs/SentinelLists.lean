import DriveLog.Bytes.Agreement
import DriveLog.Proofs.RecordLayouts
import DriveLog.Window.SlotRuns

/-! Lists that a zero ends. The entries of an error log and the additional SMART attributes
stand in slots of one size, each of which begins with a number that is zero where the list is
over. No page is refused: the list is the longest run of whole slots without such a zero, and
what stands behind the zero, in a partial slot or behind the area of the slots is never seen. -/

namespace DriveLog

variable {α : Type} {size width count count' n : Nat} {fieldsOf : Bytes → α} {bs bs' : Bytes}
  {as as' : List α}

/-! ## Slots up to a zero -/

/-- The list goes on through the first `count` slots of `size` bytes up to the first one that
begins with a zero of `width` bytes, and each record of it is made of its own slot. -/
structure EndsAtZero (size width count : Nat) (fieldsOf : Bytes → α) (bs : Bytes)
    (as : List α) : Prop where
  runs : RunsTo (fun i => bs.numberAt (size * i) width ≠ 0) count as.length
  record : ∀ i < as.length, as[i]? = some (fieldsOf (bs.slice (size * i) size))

namespace EndsAtZero

/-- The slots are the list of one list only. -/
theorem unique (h : EndsAtZero size width count fieldsOf bs as)
    (h' : EndsAtZero size width count fieldsOf bs as') : as = as' := by
  have hlength : as.length = as'.length := h.runs.unique h'.runs
  apply List.ext_getElem?
  intro i
  rcases Nat.lt_or_ge i as.length with hi | hi
  · rw [h.record i hi, h'.record i (hlength ▸ hi)]
  · rw [List.getElem?_eq_none hi, List.getElem?_eq_none (hlength ▸ hi)]

/-- Of a page that begins with the same bytes the same is listed, as far as these bytes reach:
over the slots of all records, and over the zero that ends them if the page goes on so far. -/
theorem of_take_eq (h : EndsAtZero size width count fieldsOf bs as)
    (htake : bs'.take n = bs.take n) (hwidth : width ≤ size) (hrecords : size * as.length ≤ n)
    (hcount : as.length ≤ count')
    (hend : as.length < count' → as.length < count ∧ size * as.length + width ≤ n) :
    EndsAtZero size width count' fieldsOf bs' as := by
  have hnumber : ∀ {i}, size * i + width ≤ n →
      bs'.numberAt (size * i) width = bs.numberAt (size * i) width := by
    intro i hfit
    rw [← Bytes.numberAt_take hfit bs', htake, Bytes.numberAt_take hfit]
  have hslot : ∀ {i}, i < as.length → size * i + size ≤ n := by
    intro i hi
    rw [← Nat.mul_succ]
    exact Nat.le_trans (Nat.mul_le_mul_left size hi) hrecords
  refine ⟨⟨hcount, ?before, ?ends⟩, ?record⟩
  case before =>
    intro i hi
    have hfit := hslot hi
    rw [hnumber (by omega)]
    exact h.runs.before i hi
  case ends =>
    intro hlt
    obtain ⟨hwhole, hfit⟩ := hend hlt
    rw [hnumber hfit]
    exact h.runs.ends hwhole
  case record =>
    intro i hi
    rw [h.record i hi, ← Bytes.slice_take (hslot hi) bs', htake, Bytes.slice_take (hslot hi)]

/-- The bytes behind the zero that ends a list may be any. -/
theorem of_take_zero (h : EndsAtZero size width count fieldsOf bs as)
    (hwidth : width ≤ size) (hlt : as.length < count) (hcount : as.length ≤ count')
    (htake : bs'.take (size * as.length + width) = bs.take (size * as.length + width)) :
    EndsAtZero size width count' fieldsOf bs' as :=
  h.of_take_eq htake hwidth (Nat.le_add_right _ _) hcount fun _ => ⟨hlt, Nat.le_refl _⟩

/-- The slots that are looked at are all that a list is made of. -/
theorem of_take_slots (h : EndsAtZero size width count fieldsOf bs as)
    (hwidth : width ≤ size) (hn : size * count ≤ n) (htake : bs'.take n = bs.take n) :
    EndsAtZero size width count fieldsOf bs' as := by
  have hrecords : size * as.length ≤ n :=
    Nat.le_trans (Nat.mul_le_mul_left size h.runs.le) hn
  refine h.of_take_eq htake hwidth hrecords h.runs.le fun hlt => ⟨hlt, ?_⟩
  have hnext : size * as.length + size ≤ size * count := by
    rw [← Nat.mul_succ]
    exact Nat.mul_le_mul_left size hlt
  omega

end EndsAtZero

/-- A page that begins with the bytes of a whole page is not shorter than they are. -/
theorem Bytes.le_length_of_take_eq (htake : bs'.take n = bs.take n) (h : n ≤ bs.length) :
    n ≤ bs'.length := by
  have hlength := congrArg List.length htake
  rw [List.length_take, List.length_take] at hlength
  omega

theorem Record.endsAtZero_takeWhile [Record α] {keep : α → Bool}
    (hkeep : ∀ i, keep (decode (bs.slice (Record.size α * i) (Record.size α))) = true ↔
      bs.numberAt (Record.size α * i) width ≠ 0) (hdecode : ∀ bs, decode bs = fieldsOf bs) :
    EndsAtZero (Record.size α) width (bs.length / Record.size α) fieldsOf bs
      ((slots α bs).takeWhile keep) where
  runs := runsTo_slots hkeep
  record i hi := by rw [getElem?_kept hi, hdecode]

/-! ## Reading pages -/

/-- What is read of a page, and what of the page is not seen. The length of a page tells how
many of its slots are looked at. -/
structure ListsUpToZero (read? : Bytes → Except Shortfall (List α)) (size width : Nat)
    (count : Nat → Nat) (fieldsOf : Bytes → α) (bs : Bytes) : Prop where
  listed : ∃ as, read? bs = .ok as ∧ EndsAtZero size width (count bs.length) fieldsOf bs as
  behind_zero : ∀ as, read? bs = .ok as → as.length < count bs.length → ∀ bs' : Bytes,
    bs'.take (size * as.length + width) = bs.take (size * as.length + width) →
      read? bs' = .ok as
  behind_slots : ∀ bs' : Bytes, count bs'.length = count bs.length →
    bs'.take (size * count bs.length) = bs.take (size * count bs.length) →
      read? bs' = read? bs

/-- It is enough to know the list of every page: all else follows from there being one only. -/
theorem ListsUpToZero.of_endsAtZero {read? : Bytes → Except Shortfall (List α)}
    {list : Bytes → List α} {count : Nat → Nat} (hread : ∀ bs, read? bs = .ok (list bs))
    (hlist : ∀ bs, EndsAtZero size width (count bs.length) fieldsOf bs (list bs))
    (hwidth : width ≤ size) (hwhole : ∀ length, size * count length ≤ length)
    (hcount : ∀ {k length length'}, k < count length → size * k ≤ length' → k ≤ count length')
    (bs : Bytes) : ListsUpToZero read? size width count fieldsOf bs := by
  have hunique : ∀ {bs' : Bytes} {as : List α},
      EndsAtZero size width (count bs'.length) fieldsOf bs' as → read? bs' = .ok as := by
    intro bs' as h
    rw [hread, (hlist bs').unique h]
  refine ⟨⟨_, hread bs, hlist bs⟩, ?zero, ?slots⟩
  case zero =>
    intro as h hlt bs' htake
    obtain rfl : list bs = as := Except.ok.inj ((hread bs).symm.trans h)
    have hnext : size * (list bs).length + size ≤ size * count bs.length := by
      rw [← Nat.mul_succ]
      exact Nat.mul_le_mul_left size hlt
    have hfit := hwhole bs.length
    have hlength := Bytes.le_length_of_take_eq htake (by omega)
    exact hunique ((hlist bs).of_take_zero hwidth hlt (hcount hlt (by omega)) htake)
  case slots =>
    intro bs' hlength htake
    have hzero := (hlist bs).of_take_slots hwidth (Nat.le_refl _) htake
    rw [← hlength] at hzero
    rw [hunique hzero, hread]

/-! ## The two lists -/

namespace ErrorLog

theorem isUsed_slot (i : Nat) (bs : Bytes) :
    isUsed (Record.decode (bs.slice (64 * i) 64)) = true ↔ bs.numberAt (64 * i) 8 ≠ 0 := by
  have hcount : (ErrorEntry.fieldsOf (bs.slice (64 * i) 64)).errorCount =
      bs.numberAt (64 * i) 8 := Bytes.numberAt_slice (show 0 + 8 ≤ 64 by decide) bs
  rw [Record.decode_eq]
  show isUsed (ErrorEntry.fieldsOf (bs.slice (64 * i) 64)) = true ↔ _
  rw [isUsed, decide_eq_true_iff, hcount]

def entries? (bs : Bytes) : Except Shortfall (List ErrorEntry) := (ofBytes? bs).map entries

theorem listsUpToZero (bs : Bytes) :
    ListsUpToZero entries? 64 8 (· / 64) ErrorEntry.fieldsOf bs := by
  have hread : ∀ bs, entries? bs = .ok (ofBytes bs).entries := by
    intro bs
    rw [entries?, ofBytes?_eq, Except.map]
  have hlist : ∀ bs, EndsAtZero 64 8 (bs.length / 64) ErrorEntry.fieldsOf bs (ofBytes bs).entries :=
    fun bs => Record.endsAtZero_takeWhile (isUsed_slot · bs) Record.decode_eq
  refine .of_endsAtZero hread hlist (by decide) (fun length => Nat.mul_div_le length 64) ?_ bs
  intro k length length' _ hfit
  omega

end ErrorLog

namespace Intel.AdditionalSmart

theorem isPresent_slot (i : Nat) (bs : Bytes) :
    isPresent (Record.decode (bs.slice (12 * i) 12)) = true ↔ bs.numberAt (12 * i) 1 ≠ 0 := by
  have hkey : (Attribute.fieldsOf (bs.slice (12 * i) 12)).key = bs.numberAt (12 * i) 1 :=
    Bytes.numberAt_slice (show 0 + 1 ≤ 12 by decide) bs
  rw [Record.decode_eq]
  show isPresent (Attribute.fieldsOf (bs.slice (12 * i) 12)) = true ↔ _
  rw [isPresent, decide_eq_true_iff, hkey]

/-- The number of slots that are looked at on a page of this length. -/
def slotCount (length : Nat) : Nat := min 13 (length / 12)

/-- The last slot that is looked at ends behind the area. -/
theorem endsAtZero (bs : Bytes) :
    EndsAtZero 12 1 (slotCount bs.length) Attribute.fieldsOf bs (ofBytes bs).attributes := by
  have hslots : EndsAtZero 12 1 ((slotBytes bs).length / 12) Attribute.fieldsOf (slotBytes bs)
      (ofBytes bs).attributes :=
    Record.endsAtZero_takeWhile (isPresent_slot · (slotBytes bs)) Record.decode_eq
  have hcount : (slotBytes bs).length / 12 = slotCount bs.length := by
    show (bs.take 156).length / 12 = min 13 (bs.length / 12)
    rw [List.length_take]
    omega
  have htake : bs.take 156 = (slotBytes bs).take 156 := by
    show bs.take 156 = (bs.take 156).take 156
    rw [List.take_take, Nat.min_self]
  rw [hcount] at hslots
  exact hslots.of_take_slots (by decide) (by unfold slotCount; omega) htake

def attributes? (bs : Bytes) : Except Shortfall (List Attribute) :=
  (ofBytes? bs).map attributes

theorem listsUpToZero (bs : Bytes) :
    ListsUpToZero attributes? 12 1 slotCount Attribute.fieldsOf bs := by
  have hread : ∀ bs, attributes? bs = .ok (ofBytes bs).attributes := by
    intro bs
    rw [attributes?, ofBytes?_eq, Except.map]
  refine .of_endsAtZero hread endsAtZero (by decide) ?_ ?_ bs
  · intro length
    unfold slotCount
    omega
  · intro k length length' hlt hfit
    unfold slotCount at hlt ⊢
    omega

/-- The area holds thirteen slots at most, and nothing behind them has a part in the list. -/
structure StaysInArea (bs : Bytes) : Prop where
  length_le : ∀ as, attributes? bs = .ok as → as.length ≤ 13
  starts_lt : ∀ as, attributes? bs = .ok as → ∀ i < as.length, 12 * i < 150
  behind_area : ∀ bs' : Bytes, bs'.take 156 = bs.take 156 → attributes? bs' = attributes? bs

theorem staysInArea (bs : Bytes) : StaysInArea bs := by
  have hlists := listsUpToZero bs
  have hle : ∀ as, attributes? bs = .ok as → as.length ≤ 13 := by
    intro as h
    obtain ⟨as', h', hzero⟩ := hlists.listed
    obtain rfl : as = as' := Except.ok.inj (h.symm.trans h')
    exact Nat.le_trans hzero.runs.le (Nat.min_le_left _ _)
  refine ⟨hle, ?starts, ?behind⟩
  case starts =>
    intro as h i hi
    have hlt : i < 13 := Nat.lt_of_lt_of_le hi (hle as h)
    omega
  case behind =>
    intro bs' htake
    have hlength := congrArg List.length htake
    rw [List.length_take, List.length_take] at hlength
    have hslots : 12 * slotCount bs.length ≤ 156 := by
      unfold slotCount
      omega
    apply hlists.behind_slots bs'
    · unfold slotCount
      omega
    · have hfront := congrArg (List.take (12 * slotCount bs.length)) htake
      rwa [List.take_take, List.take_take, Nat.min_eq_left hslots] at hfront

end Intel.AdditionalSmart

/-- Of every page the entries and the attributes are read up to the first zero or to the end
of the slots, and no attribute is read from behind its area. -/
theorem listsUpToZero_all (bs : Bytes) :
    ListsUpToZero ErrorLog.entries? 64 8 (· / 64) ErrorEntry.fieldsOf bs ∧
      ListsUpToZero Intel.AdditionalSmart.attributes? 12 1 (fun length => min 13 (length / 12))
        Intel.Attribute.fieldsOf bs ∧
      Intel.AdditionalSmart.StaysInArea bs :=
  ⟨ErrorLog.listsUpToZero bs, Intel.AdditionalSmart.listsUpToZero bs,
    Intel.AdditionalSmart.staysInArea bs⟩

end DriveLog
