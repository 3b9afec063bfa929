import DriveLog.Hgst.InfoPage
import DriveLog.Intel.Attribute
import DriveLog.Standard.ErrorLog
import DriveLog.Window.Cut
import DriveLog.Window.SlotRuns

/-! Pages cut short. Whatever is cut off the end of a page, each of its lists loses records
from its own end only: a record is read from bytes of its own, and one that is cut is not
read at all. Slots lose exactly those that are not whole any more. -/

namespace DriveLog

theorem Record.takeWhile_slots_take {α : Type} [Record α] (keep : α → Bool) (n : Nat)
    (bs : Bytes) :
    (slots α (bs.take n)).takeWhile keep = ((slots α bs).takeWhile keep).take (n / size α) := by
  rw [slots_take, List.take_takeWhile]

theorem ErrorLog.entries_take (bs : Bytes) (n : Nat) :
    (ofBytes (bs.take n)).entries =
      (ofBytes bs).entries.take (n / Record.size ErrorEntry) :=
  Record.takeWhile_slots_take isUsed n bs

namespace Intel.AdditionalSmart

theorem slotBytes_take (bs : Bytes) (n : Nat) : slotBytes (bs.take n) = (slotBytes bs).take n := by
  rw [slotBytes, slotBytes, List.take_take, List.take_take, Nat.min_comm]

theorem attributes_take (bs : Bytes) (n : Nat) :
    (ofBytes (bs.take n)).attributes =
      (ofBytes bs).attributes.take (n / Record.size Attribute) := by
  rw [ofBytes, slotBytes_take]
  exact Record.takeWhile_slots_take isPresent n (slotBytes bs)

end Intel.AdditionalSmart

namespace Hgst

theorem SelfTestLog.results_take (bs : Bytes) (n : Nat) :
    (ofBytes (bs.take n)).results =
      (ofBytes bs).results.take (n / Record.size SelfTestResult) := by
  rw [ofBytes_eq, ofBytes_eq]
  exact Record.takeWhile_slots_take SelfTestResult.inUse n bs

/-! ## Media scans -/

namespace MediaScan

theorem retirements_ofSlots_take {cut whole : Window} {n : Nat} (header : ScanHeader)
    (h : cut.unread = whole.unread.take n) :
    (ofSlots header cut).retirements =
      (ofSlots header whole).retirements.take (n / Record.size RetirementRecord) := by
  rw [retirements_ofSlots, retirements_ofSlots, h, Record.takeWhile_slots_take, List.map_take]

theorem retirements_take (bs : Bytes) (n : Nat) :
    (ofBytes (bs.take n)).retirements <+: (ofBytes bs).retirements := by
  by_cases h : Record.size ScanHeader ≤ (bs.take n).length
  · have hlength := List.length_take_le n bs
    have hlength' := List.length_take_le' n bs
    have hheader : (Record.decode (bs.take n) : ScanHeader) = Record.decode bs :=
      Record.decode_take (Nat.le_trans h hlength) bs
    -- The header is whole in both, so both take the same branch.
    rw [ofBytes_of_le h, ofBytes_of_le (Nat.le_trans h hlength'), hheader]
    split
    · exact List.prefix_rfl
    · split
      · exact List.prefix_rfl
      · have hrest : ((Window.ofBytes (bs.take n)).advance (Record.size ScanHeader)).unread =
            ((Window.ofBytes bs).advance (Record.size ScanHeader)).unread.take
              (n - Record.size ScanHeader) := List.drop_take
        rw [retirements_ofSlots_take _ hrest]
        exact List.take_prefix _ _
  · rw [ofBytes_of_lt (Nat.not_le.mp h)]
    exact List.nil_prefix

end MediaScan

/-! ## Walks -/

theorem Parameter.steady_read (table : LabelTable) : (read table).Steady := by
  refine (Reader.steady_number 2).bind fun code => ?_
  refine (Reader.steady_skip 1).bind fun _ => ?_
  refine (Reader.steady_number 1).bind fun length => ?_
  refine (Reader.steady_take length).bind fun value => ?_
  exact Reader.steady_pure _

theorem ParameterList.parameters_take (table : LabelTable) (bs : Bytes) (n : Nat) :
    (ofBytes table (bs.take n)).parameters <+: (ofBytes table bs).parameters :=
  ItemReader.items_walk_of_cut (Parameter.steady_read table)
    (Window.CutOf.ofBytes (List.take_prefix n bs))

theorem SubpageEntry.steady_read : read.Steady := by
  refine Reader.steady_position.bind fun offset => ?_
  refine (Reader.steady_number 1).bind fun kind => ?_
  refine (Reader.steady_number 1).bind fun reserved => ?_
  refine (Reader.steady_number 2).bind fun length => ?_
  refine (Reader.steady_take length).bind fun payload => ?_
  exact Reader.steady_pure _

namespace InfoPage

variable {bs : Bytes} {n : Nat}

/-- A page that keeps its header keeps the front of its list. -/
theorem list_take (hheader : 4 ≤ n) (hn : n ≤ bs.length) : (list (bs.take n)).CutOf (list bs) := by
  refine ⟨rfl, rfl, ?_⟩
  have hlength : Bytes.numberAt 2 2 (bs.take n) = bs.numberAt 2 2 := Bytes.numberAt_take hheader bs
  simp only [list]
  rw [hlength, List.length_take, Nat.min_eq_left hn, List.drop_take, List.take_take]
  exact List.take_prefix_take_left (by omega)

theorem subpages_take (hheader : 4 ≤ n) (hn : n ≤ bs.length) :
    ∃ cut whole, ofBytes? (bs.take n) = .ok cut ∧ ofBytes? bs = .ok whole ∧
      cut.subpages <+: whole.subpages := by
  have hcut : 4 ≤ (bs.take n).length := by
    rw [List.length_take, Nat.min_eq_left hn]
    exact hheader
  refine ⟨_, _, ofBytes?_of_le hcut, ofBytes?_of_le (Nat.le_trans hheader hn), ?_⟩
  exact ItemReader.items_walk_of_cut SubpageEntry.steady_read (list_take hheader hn)

end InfoPage

end Hgst

/-! ## All lists -/

/-- What each decoder lists of the first byte string stands at the front of what it lists of
the second one. -/
structure Truncates (cut whole : Bytes) : Prop where
  errorLog : ∃ short long, ErrorLog.ofBytes? cut = .ok short ∧
    ErrorLog.ofBytes? whole = .ok long ∧ short.entries <+: long.entries
  additionalSmart : ∃ short long, Intel.AdditionalSmart.ofBytes? cut = .ok short ∧
    Intel.AdditionalSmart.ofBytes? whole = .ok long ∧ short.attributes <+: long.attributes
  parameters : ∀ table, (Hgst.ParameterList.ofBytes table cut).parameters <+:
    (Hgst.ParameterList.ofBytes table whole).parameters
  selfTest : (Hgst.SelfTestLog.ofBytes cut).results <+: (Hgst.SelfTestLog.ofBytes whole).results
  mediaScan : (Hgst.MediaScan.ofBytes cut).retirements <+:
    (Hgst.MediaScan.ofBytes whole).retirements
  infoPage : 4 ≤ cut.length → ∃ short long, Hgst.InfoPage.ofBytes? cut = .ok short ∧
    Hgst.InfoPage.ofBytes? whole = .ok long ∧ short.subpages <+: long.subpages

/-- Cutting a byte string short takes records off the end of every list and changes none. -/
theorem truncates_take {bs : Bytes} {n : Nat} (hn : n ≤ bs.length) : Truncates (bs.take n) bs where
  errorLog := by
    refine ⟨_, _, ErrorLog.ofBytes?_eq _, ErrorLog.ofBytes?_eq _, ?_⟩
    rw [ErrorLog.entries_take]
    exact List.take_prefix _ _
  additionalSmart := by
    refine ⟨_, _, Intel.AdditionalSmart.ofBytes?_eq _, Intel.AdditionalSmart.ofBytes?_eq _, ?_⟩
    rw [Intel.AdditionalSmart.attributes_take]
    exact List.take_prefix _ _
  parameters table := Hgst.ParameterList.parameters_take table bs n
  selfTest := by
    rw [Hgst.SelfTestLog.results_take]
    exact List.take_prefix _ _
  mediaScan := Hgst.MediaScan.retirements_take bs n
  infoPage hheader := by
    rw [List.length_take, Nat.min_eq_left hn] at hheader
    exact Hgst.InfoPage.subpages_take hheader hn

/-- Of two self tests the one that is cut in the middle is lost, and the other one stays. -/
theorem truncates_take_half :
    30 ≤ (List.replicate 40 0x10 : Bytes).length ∧
      Truncates ((List.replicate 40 0x10).take 30) (List.replicate 40 0x10) ∧
      (Hgst.SelfTestLog.ofBytes ((List.replicate 40 0x10).take 30)).results.length = 1 ∧
      (Hgst.SelfTestLog.ofBytes (List.replicate 40 0x10)).results.length = 2 :=
  ⟨by decide, truncates_take (by decide), by decide +kernel, by decide +kernel⟩

end DriveLog
