import DriveLog.Bytes.Agreement
import DriveLog.Proofs.RecordLayouts
import DriveLog.Proofs.Truncation

/-! Lists of slots. A self test log and the retirements of a media scan stand in slots of one
size, and go on up to the first slot whose length byte is not the right one. That slot is the
fault, if there is any; what a slot holds is made of its own bytes, and what stands behind the
last slot that was looked at is never seen. -/

namespace DriveLog.Hgst

/-! ## Self tests -/

namespace SelfTestLog

variable {bs bs' : Bytes} {i k n : Nat}

theorem decode_slot (i : Nat) (bs : Bytes) :
    (Record.decode (bs.slice (20 * i) 20) : SelfTestResult) =
      .fieldsOf (bs.slice (20 * i) 20) := Record.decode_eq _

theorem length_slot (i : Nat) (bs : Bytes) :
    (SelfTestResult.fieldsOf (bs.slice (20 * i) 20)).length = bs.numberAt (20 * i + 3) 1 :=
  Bytes.numberAt_slice (show 3 + 1 ≤ 20 by decide) bs

theorem results_eq (bs : Bytes) :
    (ofBytes bs).results =
      (Record.slots SelfTestResult bs).takeWhile SelfTestResult.inUse := by
  rw [ofBytes_eq]

/-- The slot behind the results is all that can be wrong with a log. -/
theorem fault_eq (bs : Bytes) :
    (ofBytes bs).fault =
      ((Record.slots SelfTestResult bs).dropWhile SelfTestResult.inUse).head?.bind faultOf := by
  rw [ofBytes_eq]

theorem runsTo_results (bs : Bytes) :
    RunsTo (fun i => bs.numberAt (20 * i + 3) 1 = 0x10) (bs.length / 20)
      (ofBytes bs).results.length := by
  rw [results_eq]
  show RunsTo _ (bs.length / Record.size SelfTestResult) _
  apply Record.runsTo_slots
  intro i
  rw [SelfTestResult.inUse_iff, ← length_slot, ← decode_slot]
  rfl

theorem getElem?_results (h : i < (ofBytes bs).results.length) :
    (ofBytes bs).results[i]? = some (.fieldsOf (bs.slice (20 * i) 20)) := by
  rw [results_eq] at h ⊢
  rw [← decode_slot]
  exact Record.getElem?_kept h

theorem fault_of_eq (h : (ofBytes bs).results.length = bs.length / 20) :
    (ofBytes bs).fault = none := by
  rw [results_eq] at h
  rw [fault_eq, Record.head?_dropped_of_eq h, Option.bind_none]

theorem fault_of_lt (h : (ofBytes bs).results.length < bs.length / 20) :
    (ofBytes bs).fault =
      if bs.numberAt (20 * (ofBytes bs).results.length + 3) 1 = 0 then none
      else some (.selfTestLength (bs.numberAt (20 * (ofBytes bs).results.length + 3) 1)) := by
  rw [← length_slot, ← decode_slot]
  rw [results_eq] at h ⊢
  rw [fault_eq, Record.head?_dropped_of_lt h]
  rfl

/-- What stands behind the slot that ends the log is not looked at. -/
theorem ofBytes_take (h : (ofBytes bs).results.length < n / 20) :
    ofBytes (bs.take n) = ofBytes bs := by
  have hslots : Record.slots SelfTestResult (bs.take n) =
      (Record.slots SelfTestResult bs).take (n / 20) := Record.slots_take n bs
  have hresults : (ofBytes (bs.take n)).results = (ofBytes bs).results := by
    rw [results_take]
    exact List.take_of_length_le (Nat.le_of_lt h)
  have hfault : (ofBytes (bs.take n)).fault = (ofBytes bs).fault := by
    rw [fault_eq, fault_eq, head?_dropWhile, head?_dropWhile, ← results_eq, ← results_eq,
      hresults, hslots, List.getElem?_take_of_lt h]
  exact congrArg₂ mk hresults hfault

theorem ofBytes_congr_of_lt (hk : (ofBytes bs).results.length = k)
    (h : bs'.take (20 * (k + 1)) = bs.take (20 * (k + 1))) : ofBytes bs' = ofBytes bs := by
  have hcount : 20 * (k + 1) / 20 = k + 1 := Nat.mul_div_cancel_left _ (by decide)
  have hwhole : ofBytes (bs.take (20 * (k + 1))) = ofBytes bs := ofBytes_take (by omega)
  have hfront : (ofBytes bs').results.take (20 * (k + 1) / 20) = (ofBytes bs).results := by
    rw [← hwhole, ← h]
    exact (results_take bs' (20 * (k + 1))).symm
  -- A longer log would have kept one result more.
  have hlt : (ofBytes bs').results.length < 20 * (k + 1) / 20 := by
    have hlength := congrArg List.length hfront
    rw [List.length_take] at hlength
    omega
  rw [← ofBytes_take hlt, h, hwhole]

/-- The whole slots are all that a log is made of. -/
theorem ofBytes_congr_of_slots (hlength : bs'.length / 20 = bs.length / 20)
    (h : bs'.take (20 * (bs.length / 20)) = bs.take (20 * (bs.length / 20))) :
    ofBytes bs' = ofBytes bs := by
  have hwhole : ∀ bytes : Bytes, bytes.length / 20 = bs.length / 20 →
      Record.slots SelfTestResult (bytes.take (20 * (bs.length / 20))) =
        Record.slots SelfTestResult bytes := by
    intro bytes hbytes
    rw [Record.slots_take]
    apply List.take_of_length_le
    rw [Record.length_slots]
    show bytes.length / 20 ≤ 20 * (bs.length / 20) / 20
    rw [hbytes, Nat.mul_div_cancel_left _ (by decide)]
  rw [ofBytes_eq, ofBytes_eq, ← hwhole bs' hlength, ← hwhole bs rfl, h]

/-- The second byte string is like the first up to the end of the slot that ends the log, or,
if no slot does, in all whole slots. -/
def SameSlots (bs bs' : Bytes) : Prop :=
  if (ofBytes bs).results.length < bs.length / 20 then
    bs'.take (20 * ((ofBytes bs).results.length + 1)) =
      bs.take (20 * ((ofBytes bs).results.length + 1))
  else
    bs'.length / 20 = bs.length / 20 ∧
      bs'.take (20 * (bs.length / 20)) = bs.take (20 * (bs.length / 20))

/-- What the log of a byte string has to do with its slots. -/
structure ReadsSlots (bs : Bytes) : Prop where
  runs : RunsTo (fun i => bs.numberAt (20 * i + 3) 1 = 0x10) (bs.length / 20)
    (ofBytes bs).results.length
  result : ∀ i < (ofBytes bs).results.length,
    (ofBytes bs).results[i]? = some (.fieldsOf (bs.slice (20 * i) 20))
  used_up : (ofBytes bs).results.length = bs.length / 20 → (ofBytes bs).fault = none
  ended : (ofBytes bs).results.length < bs.length / 20 → (ofBytes bs).fault =
    if bs.numberAt (20 * (ofBytes bs).results.length + 3) 1 = 0 then none
    else some (.selfTestLength (bs.numberAt (20 * (ofBytes bs).results.length + 3) 1))
  not_truncated : ∀ shortfall, (ofBytes bs).fault ≠ some (.truncated shortfall)
  congr : ∀ bs', SameSlots bs bs' → ofBytes bs' = ofBytes bs

/-- The log is the slots in use up to the first that is not, and nothing behind that slot
and no partial one is seen. -/
theorem readsSlots (bs : Bytes) : ReadsSlots bs where
  runs := runsTo_results bs
  result i hi := getElem?_results hi
  used_up := fault_of_eq
  ended := fault_of_lt
  not_truncated shortfall h := by
    rw [fault_eq] at h
    obtain ⟨slot, _, hslot⟩ := Option.bind_eq_some_iff.mp h
    unfold faultOf at hslot
    split at hslot
    · cases hslot
    · cases hslot
  congr bs' h := by
    unfold SameSlots at h
    split at h
    · exact ofBytes_congr_of_lt rfl h
    · exact ofBytes_congr_of_slots h.1 h.2

end SelfTestLog

/-! ## Media scans -/

/-- The retirement that a slot of 24 bytes stands for. -/
def Retirement.ofSlot (slot : Bytes) : Retirement :=
  if slot.slice 8 8 = RetirementRecord.fixedMagic then
    .valid (slot.numberAt 0 2) (slot.numberAt 20 4)
  else .corrupt (slot.numberAt 0 2)

namespace MediaScan

variable {bs : Bytes} {i : Nat}

/-- Nothing is listed but what is wrong. -/
structure IsRefused (scan : MediaScan) (anomaly : Anomaly) : Prop where
  header : scan.header = none
  slots : scan.slots = 0
  retirements : scan.retirements = []
  fault : scan.fault = some anomaly

/-- A scan with the right header accounts for every slot of 24 bytes behind it. -/
structure AccountsFor (bs : Bytes) (scan : MediaScan) : Prop where
  header : scan.header = some (.fieldsOf bs)
  slots : scan.slots = (bs.length - 20) / 24
  runs : RunsTo (fun i => bs.numberAt (20 + 24 * i + 3) 1 = 0x14) scan.slots
    scan.retirements.length
  retirement : ∀ i < scan.retirements.length,
    scan.retirements[i]? = some (.ofSlot (bs.slice (20 + 24 * i) 24))
  fault_eq_none_iff : scan.fault = none ↔ scan.retirements.length = scan.slots
  ended : scan.retirements.length < scan.slots → scan.fault = some
    (.retirementLength (bs.numberAt (20 + 24 * scan.retirements.length) 2)
      (bs.numberAt (20 + 24 * scan.retirements.length + 3) 1))
  not_truncated : ∀ shortfall, scan.fault ≠ some (.truncated shortfall)

theorem decode_header (bs : Bytes) : (Record.decode bs : ScanHeader) = .fieldsOf bs :=
  Record.decode_eq bs

/-- The slots stand behind the header. -/
theorem slice_drop (i : Nat) (bs : Bytes) :
    Bytes.slice (24 * i) 24 (bs.drop 20) = bs.slice (20 + 24 * i) 24 := by
  rw [Bytes.slice, Bytes.slice, List.drop_drop]

theorem decode_slot (i : Nat) (bs : Bytes) :
    (Record.decode (Bytes.slice (24 * i) 24 (bs.drop 20)) : RetirementRecord) =
      .fieldsOf (bs.slice (20 + 24 * i) 24) := by
  rw [slice_drop]
  exact Record.decode_eq _

theorem length_slot (i : Nat) (bs : Bytes) :
    (RetirementRecord.fieldsOf (bs.slice (20 + 24 * i) 24)).length =
      bs.numberAt (20 + 24 * i + 3) 1 :=
  Bytes.numberAt_slice (show 3 + 1 ≤ 24 by decide) bs

theorem code_slot (i : Nat) (bs : Bytes) :
    (RetirementRecord.fieldsOf (bs.slice (20 + 24 * i) 24)).code =
      bs.numberAt (20 + 24 * i) 2 :=
  Bytes.numberAt_slice (show 0 + 2 ≤ 24 by decide) bs

section List

variable {header : ScanHeader} {w : Window}

theorem slots_ofSlots (h : w.unread = bs.drop 20) :
    (ofSlots header w).slots = (bs.length - 20) / 24 := by
  show w.remaining / 24 = _
  rw [w.remaining_eq, h, List.length_drop]

theorem runsTo_ofSlots (h : w.unread = bs.drop 20) :
    RunsTo (fun i => bs.numberAt (20 + 24 * i + 3) 1 = 0x14) (ofSlots header w).slots
      (ofSlots header w).retirements.length := by
  rw [retirements_ofSlots, List.length_map, slots_ofSlots h, h, ← List.length_drop]
  show RunsTo _ ((bs.drop 20).length / Record.size RetirementRecord) _
  apply Record.runsTo_slots
  intro i
  rw [RetirementRecord.hasRightLength_iff, ← length_slot, ← decode_slot]
  rfl

theorem getElem?_ofSlots (h : w.unread = bs.drop 20)
    (hi : i < (ofSlots header w).retirements.length) :
    (ofSlots header w).retirements[i]? = some (.ofSlot (bs.slice (20 + 24 * i) 24)) := by
  rw [retirements_ofSlots, h] at hi ⊢
  rw [List.length_map] at hi
  rw [List.getElem?_map, Record.getElem?_kept hi, Option.map_some]
  exact congrArg (fun r => some (Retirement.ofRecord r)) (decode_slot i bs)

theorem fault_ofSlots_of_lt (h : w.unread = bs.drop 20)
    (hlt : (ofSlots header w).retirements.length < (ofSlots header w).slots) :
    (ofSlots header w).fault = some
      (.retirementLength (bs.numberAt (20 + 24 * (ofSlots header w).retirements.length) 2)
        (bs.numberAt (20 + 24 * (ofSlots header w).retirements.length + 3) 1)) := by
  rw [← length_slot, ← code_slot, ← decode_slot]
  rw [slots_ofSlots h, ← List.length_drop] at hlt
  rw [retirements_ofSlots, List.length_map, h] at hlt ⊢
  rw [fault_ofSlots, h, Record.head?_dropped_of_lt hlt]
  rfl

theorem fault_ofSlots_of_eq (h : w.unread = bs.drop 20)
    (heq : (ofSlots header w).retirements.length = (ofSlots header w).slots) :
    (ofSlots header w).fault = none := by
  rw [slots_ofSlots h, ← List.length_drop] at heq
  rw [retirements_ofSlots, List.length_map, h] at heq
  rw [fault_ofSlots, h, Record.head?_dropped_of_eq heq, Option.map_none]

theorem accountsFor_ofSlots (h : w.unread = bs.drop 20) :
    (ofSlots (.fieldsOf bs) w).AccountsFor bs where
  header := rfl
  slots := slots_ofSlots h
  runs := runsTo_ofSlots h
  retirement i hi := getElem?_ofSlots h hi
  fault_eq_none_iff := by
    refine ⟨fun hnone => ?_, fault_ofSlots_of_eq h⟩
    rcases Nat.lt_or_eq_of_le (runsTo_ofSlots h).le with hlt | heq
    · cases hnone.symm.trans (fault_ofSlots_of_lt h hlt)
    · exact heq
  ended := fault_ofSlots_of_lt h
  not_truncated shortfall hfault := by
    rw [fault_ofSlots] at hfault
    obtain ⟨slot, _, hslot⟩ := Option.map_eq_some_iff.mp hfault
    cases hslot

end List

/-- What a payload of each kind is read as. -/
structure ReadsPayload (bs : Bytes) : Prop where
  short : bs.length < 20 → (ofBytes bs).IsRefused (.truncated ⟨0, 20, bs.length⟩)
  /-- The length byte is looked at before the code. -/
  wrongLength : 20 ≤ bs.length → bs.numberAt 3 1 ≠ 0x10 →
    (ofBytes bs).IsRefused (.scanHeaderLength (bs.numberAt 3 1))
  wrongCode : 20 ≤ bs.length → bs.numberAt 3 1 = 0x10 → bs.numberAt 0 2 ≠ 0 →
    (ofBytes bs).IsRefused (.scanHeaderCode (bs.numberAt 0 2))
  accepted : 20 ≤ bs.length → bs.numberAt 3 1 = 0x10 → bs.numberAt 0 2 = 0 →
    (ofBytes bs).AccountsFor bs

theorem ofBytes_of_header (h : 20 ≤ bs.length) :
    ofBytes bs =
      if bs.numberAt 3 1 ≠ 0x10 then { fault := some (.scanHeaderLength (bs.numberAt 3 1)) }
      else if bs.numberAt 0 2 ≠ 0 then { fault := some (.scanHeaderCode (bs.numberAt 0 2)) }
      else ofSlots (.fieldsOf bs) ((Window.ofBytes bs).advance 20) := by
  rw [ofBytes_of_le h, decode_header]
  rfl

/-- A payload is refused for its header alone. Behind a right header each slot stands in its
fixed place, whatever the slots before it hold. -/
theorem readsPayload (bs : Bytes) : ReadsPayload bs where
  short h := by
    rw [ofBytes_of_lt h]
    exact ⟨rfl, rfl, rfl, rfl⟩
  wrongLength h hlength := by
    rw [ofBytes_of_header h, if_pos hlength]
    exact ⟨rfl, rfl, rfl, rfl⟩
  wrongCode h hlength hcode := by
    rw [ofBytes_of_header h, if_neg (not_not_intro hlength), if_pos hcode]
    exact ⟨rfl, rfl, rfl, rfl⟩
  accepted h hlength hcode := by
    rw [ofBytes_of_header h, if_neg (not_not_intro hlength), if_neg (not_not_intro hcode)]
    exact accountsFor_ofSlots rfl

end MediaScan

end DriveLog.Hgst
