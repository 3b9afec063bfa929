import Mathlib.Algebra.GroupWithZero.Nat
import DriveLog.Hgst.ParameterList

/-! Parameter lists and the bytes they stand for. A stored parameter is a parameter with all
its bytes, flags included. Decoding takes the longest run of whole stored parameters off
the front of a byte string, and names the first part of the one after it that is cut. -/

namespace DriveLog.Hgst

/-- A parameter as it stands in a list. -/
structure StoredParameter where
  code : Nat
  flags : UInt8
  value : Bytes
  code_lt : code < 0x10000
  length_lt : value.length < 0x100

namespace StoredParameter

def bytes (p : StoredParameter) : Bytes :=
  Bytes.toLE 2 p.code ++ [p.flags] ++ Bytes.toLE 1 p.value.length ++ p.value

/-- What a parameter list keeps of the parameter. -/
def parameter (table : LabelTable) (p : StoredParameter) : Parameter where
  code := p.code
  label := table.label p.code
  value := Bytes.ofLE (p.value.take 8)

@[simp] theorem length_bytes (p : StoredParameter) : p.bytes.length = 4 + p.value.length := by
  simp only [bytes, List.length_append, Bytes.length_toLE, List.length_singleton]

theorem length_flatMap_bytes (stored : List StoredParameter) :
    (stored.flatMap bytes).length = (stored.map fun p => 4 + p.value.length).sum := by
  simp [List.length_flatMap]

end StoredParameter

/-- Where the first part that does not fit begins in a cut parameter, and how many bytes it
takes: the code, the flags, the length or the value. -/
def firstCut : Bytes → Nat × Nat
  | [] | [_] => (0, 2)
  | [_, _] => (2, 1)
  | [_, _, _] => (3, 1)
  | _ :: _ :: _ :: length :: _ => (4, length.toNat)

/-- A byte string begins with a whole parameter, or the part of one that it holds is cut. -/
theorem exists_prefix_or_cut (bs : Bytes) :
    (∃ p : StoredParameter, p.bytes <+: bs) ∨
      (firstCut bs).1 ≤ bs.length ∧ bs.length < (firstCut bs).1 + (firstCut bs).2 := by
  match bs with
  | [] | [_] | [_, _] | [_, _, _] => exact Or.inr ⟨by simp [firstCut], by simp [firstCut]⟩
  | low :: high :: flags :: length :: rest =>
    by_cases hfit : length.toNat ≤ rest.length
    · have hlen : (rest.take length.toNat).length = length.toNat := by
        rw [List.length_take, Nat.min_eq_left hfit]
      have hcode_lt : Bytes.ofLE [low, high] < 0x10000 := by
        have hlow := low.toNat_lt
        have hhigh := high.toNat_lt
        simp only [Bytes.ofLE_cons, Bytes.ofLE_nil]
        omega
      have hcode : Bytes.toLE 2 (Bytes.ofLE [low, high]) = [low, high] :=
        Bytes.toLE_ofLE [low, high]
      have hlength : Bytes.toLE 1 length.toNat = [length] := by
        simpa using Bytes.toLE_ofLE [length]
      have hlt : (rest.take length.toNat).length < 256 := by
        rw [hlen]
        exact length.toNat_lt
      refine Or.inl ⟨⟨Bytes.ofLE [low, high], flags, rest.take length.toNat,
        hcode_lt, hlt⟩, rest.drop length.toNat, ?_⟩
      simp only [StoredParameter.bytes, hcode, hlen, hlength]
      simp
    · refine Or.inr ⟨by simp [firstCut], ?_⟩
      simp only [firstCut, List.length_cons]
      omega

namespace Parameter

variable {table : LabelTable} {w w' : Window}

theorem read_of_stored {p : StoredParameter} (h : p.bytes <+: w.unread) :
    read table w = .ok (p.parameter table, w.advance p.bytes.length) := by
  obtain ⟨rest, hrest⟩ := h
  have hcount : w.remaining = 4 + p.value.length + rest.length := by
    rw [w.remaining_eq, ← hrest, List.length_append, p.length_bytes]
  have hcode : Bytes.ofLE (w.unread.take 2) = p.code := by
    rw [← hrest]
    simp [StoredParameter.bytes, Bytes.ofLE_toLE_two p.code_lt]
  have hlength : Bytes.ofLE ((w.unread.drop 3).take 1) = p.value.length := by
    rw [← hrest]
    simp [StoredParameter.bytes, Bytes.toLE, Nat.mod_eq_of_lt p.length_lt]
  have hvalue : (w.unread.drop 4).take p.value.length = p.value := by
    rw [← hrest]
    simp [StoredParameter.bytes, Bytes.toLE]
  rw [read, Reader.bind_of_ok (Reader.number_of_le (by omega)),
    Reader.bind_of_ok (Reader.skip_of_le (by simp; omega)),
    Reader.bind_of_ok (Reader.number_of_le (by simp; omega))]
  simp only [Window.advance_advance, Window.unread_advance, hcode, hlength]
  rw [Reader.bind_of_ok (Reader.take_of_le (by simp; omega))]
  simp only [Window.advance_advance, Window.unread_advance, hvalue, p.length_bytes,
    Bytes.toNat_lowWord]
  rfl

/-- What a refused read reports: the part that is cut, and what is left of it. -/
def cut (w : Window) : Shortfall :=
  ⟨w.position + (firstCut w.unread).1, (firstCut w.unread).2,
    w.remaining - (firstCut w.unread).1⟩

theorem read_of_cut (h : w.remaining < (firstCut w.unread).1 + (firstCut w.unread).2) :
    read table w = .error (cut w) := by
  have hrem := w.remaining_eq
  unfold cut
  match hbs : w.unread with
  | [] | [_] =>
    simp only [hbs, List.length_nil, List.length_cons] at hrem
    rw [read, Reader.bind_of_error (Reader.number_of_lt (by omega))]
    rfl
  | [_, _] =>
    simp only [hbs, List.length_nil, List.length_cons] at hrem
    rw [read, Reader.bind_of_ok (Reader.number_of_le (by omega)),
      Reader.bind_of_error (Reader.skip_of_lt (by simp; omega))]
    simp [Window.shortfall, firstCut]
  | [_, _, _] =>
    simp only [hbs, List.length_nil, List.length_cons] at hrem
    rw [read, Reader.bind_of_ok (Reader.number_of_le (by omega)),
      Reader.bind_of_ok (Reader.skip_of_le (by simp; omega)),
      Reader.bind_of_error (Reader.number_of_lt (by simp; omega))]
    simp [Window.shortfall, firstCut]
  | low :: high :: flags :: length :: rest =>
    simp only [hbs, List.length_cons, firstCut] at hrem h
    have hlength : Bytes.ofLE ((w.unread.drop 3).take 1) = length.toNat := by
      simp [hbs]
    rw [read, Reader.bind_of_ok (Reader.number_of_le (by omega)),
      Reader.bind_of_ok (Reader.skip_of_le (by simp; omega)),
      Reader.bind_of_ok (Reader.number_of_le (by simp; omega))]
    simp only [Window.advance_advance, Window.unread_advance, hlength]
    rw [Reader.bind_of_error (Reader.take_of_lt (by simp; omega))]
    simp [Window.shortfall, firstCut]

/-- Reading takes a whole parameter off the front if there is one, and is refused by the
first part that is cut if there is none. -/
theorem read_cases (table : LabelTable) (w : Window) :
    (∃ p : StoredParameter, p.bytes <+: w.unread ∧
        read table w = .ok (p.parameter table, w.advance p.bytes.length)) ∨
      (∀ p : StoredParameter, ¬ p.bytes <+: w.unread) ∧
        (cut w).available < (cut w).needed ∧
        (cut w).offset + (cut w).available = w.position + w.remaining ∧
        read table w = .error (cut w) := by
  rcases exists_prefix_or_cut w.unread with ⟨p, hp⟩ | ⟨hle, hlt⟩
  · exact Or.inl ⟨p, hp, read_of_stored hp⟩
  · rw [← w.remaining_eq] at hle hlt
    have herror : read table w = .error (cut w) := read_of_cut hlt
    refine Or.inr ⟨?_, ?_, ?_, herror⟩
    · intro p hp
      rw [read_of_stored hp] at herror
      cases herror
    · simp only [cut]; omega
    · simp only [cut]; omega

/-! ## Lists -/

/-- The parameters that are read one after another are stored one behind the other. -/
theorem exists_stored_of_reads {ps : List Parameter} (h : (reader table).Reads w ps w') :
    ∃ stored : List StoredParameter, ps = stored.map (·.parameter table) ∧
      stored.flatMap StoredParameter.bytes <+: w.unread ∧
      w' = w.advance (stored.flatMap StoredParameter.bytes).length := by
  induction h with
  | nil => exact ⟨[], rfl, List.nil_prefix, (Window.advance_zero _).symm⟩
  | @cons w v w' a as hr _ ih =>
    obtain ⟨stored, rfl, ⟨rest, hrest⟩, rfl⟩ := ih
    rcases read_cases table w with ⟨p, ⟨tail, htail⟩, hok⟩ | ⟨_, _, _, herror⟩
    · obtain ⟨rfl, rfl⟩ : a = p.parameter table ∧ v = w.advance p.bytes.length := by
        have heq := hr.symm.trans hok
        cases heq
        exact ⟨rfl, rfl⟩
      refine ⟨p :: stored, rfl, ⟨rest, ?_⟩, ?_⟩
      · rw [Window.unread_advance, ← htail, List.drop_left] at hrest
        rw [List.flatMap_cons, List.append_assoc, hrest, htail]
      · rw [Window.advance_advance, List.flatMap_cons, List.length_append]
    · have heq := hr.symm.trans herror
      cases heq

theorem reads_of_stored (stored : List StoredParameter) {rest : Bytes}
    (h : stored.flatMap StoredParameter.bytes ++ rest = w.unread) :
    (reader table).Reads w (stored.map (·.parameter table))
      (w.advance (stored.flatMap StoredParameter.bytes).length) := by
  induction stored generalizing w with
  | nil =>
    rw [List.flatMap_nil, List.length_nil, Window.advance_zero]
    exact .nil
  | cons p stored ih =>
    rw [List.flatMap_cons, List.append_assoc] at h
    have hread : (reader table).read w = .ok (p.parameter table, w.advance p.bytes.length) :=
      read_of_stored ⟨_, h⟩
    have htail : stored.flatMap StoredParameter.bytes ++ rest =
        (w.advance p.bytes.length).unread := by
      rw [Window.unread_advance, ← h, List.drop_left]
    have hreads := ih htail
    rw [Window.advance_advance, ← List.length_append, ← List.flatMap_cons] at hreads
    exact .cons hread hreads

end Parameter

namespace ParameterList

/-- A list is what the bytes hold: the whole parameters on their front, how far those go,
and the part that is cut in what is left. -/
structure Describes (table : LabelTable) (bs : Bytes) (list : ParameterList) : Prop where
  stored : ∃ stored : List StoredParameter,
    bs.take list.consumed = stored.flatMap StoredParameter.bytes ∧
    list.parameters = stored.map (·.parameter table) ∧
    list.consumed = (stored.map fun p => 4 + p.value.length).sum
  consumed_le : list.consumed ≤ bs.length
  fault_eq_none_iff : list.fault = none ↔ list.consumed = bs.length
  cut : ∀ e, list.fault = some e →
    bs.drop list.consumed ≠ [] ∧
    (∀ p : StoredParameter, ¬ p.bytes <+: bs.drop list.consumed) ∧
    e.available < e.needed ∧
    e.offset + e.available = bs.length ∧
    list.consumed ≤ e.offset ∧
    (e.offset - list.consumed, e.needed) = firstCut (bs.drop list.consumed)

theorem ofBytes_describes (table : LabelTable) (bs : Bytes) :
    (ofBytes table bs).Describes table bs := by
  have hreads := (Parameter.reader table).walk_reads (.ofBytes bs)
  have hstops := (Parameter.reader table).walk_stops (.ofBytes bs)
  obtain ⟨stored, hitems, hprefix, hrest⟩ := Parameter.exists_stored_of_reads hreads
  rw [Window.unread_ofBytes] at hprefix
  rw [hrest] at hstops
  have hconsumed : (ofBytes table bs).consumed =
      (stored.flatMap StoredParameter.bytes).length := by
    rw [ofBytes, hrest, Window.offset_advance, Window.offset_ofBytes, Nat.zero_add]
  have hle := hprefix.length_le
  have hfault : (ofBytes table bs).fault = none ↔ (ofBytes table bs).consumed = bs.length := by
    rw [hconsumed]
    change ((Parameter.reader table).walk (.ofBytes bs)).fault = none ↔ _
    split at hstops
    · rename_i hnone
      rw [Window.remaining_advance, Window.remaining_ofBytes] at hstops
      simp only [hnone, true_iff]
      omega
    · rename_i e hsome
      obtain ⟨hne, _⟩ := hstops
      rw [Window.remaining_advance, Window.remaining_ofBytes] at hne
      simp only [hsome, reduceCtorEq, false_iff]
      omega
  refine ⟨⟨stored, ?_, hitems, ?_⟩, hconsumed ▸ hle, hfault, ?_⟩
  · rw [hconsumed]
    exact (List.prefix_iff_eq_take.mp hprefix).symm
  · rw [hconsumed, StoredParameter.length_flatMap_bytes]
  · intro e he
    have hsome : ((Parameter.reader table).walk (.ofBytes bs)).fault = some e := he
    rw [hsome] at hstops
    obtain ⟨hne, herror⟩ := hstops
    rw [hconsumed]
    rcases Parameter.read_cases table
        ((Window.ofBytes bs).advance (stored.flatMap StoredParameter.bytes).length) with
      ⟨p, _, hok⟩ | ⟨hno, hlt, hsum, hcut⟩
    · have heq := herror.symm.trans hok
      cases heq
    · obtain rfl : e = Parameter.cut _ := by
        have heq := herror.symm.trans hcut
        cases heq
        rfl
      simp only [Window.remaining_advance, Window.remaining_ofBytes, Window.position_advance,
        Window.position_ofBytes] at hne hsum
      refine ⟨?_, hno, hlt, by omega, ?_, ?_⟩
      · rw [Ne, List.drop_eq_nil_iff]
        omega
      · simp [Parameter.cut]
      · simp [Parameter.cut]

/-- Stored parameters are decoded in order, and nothing is left of them. -/
theorem ofBytes_stored (table : LabelTable) (stored : List StoredParameter) :
    ofBytes table (stored.flatMap StoredParameter.bytes) =
      { parameters := stored.map (·.parameter table)
        consumed := (stored.map fun p => 4 + p.value.length).sum
        fault := none } := by
  have hreads : (Parameter.reader table).Reads (.ofBytes (stored.flatMap StoredParameter.bytes))
      (stored.map (·.parameter table)) _ :=
    Parameter.reads_of_stored stored (List.append_nil _)
  have hempty : ((Window.ofBytes (stored.flatMap StoredParameter.bytes)).advance
      (stored.flatMap StoredParameter.bytes).length).remaining = 0 := by
    rw [Window.remaining_advance, Window.remaining_ofBytes, Nat.sub_self]
  rw [ofBytes, ItemReader.walk_of_reads_all hreads hempty, Window.offset_advance,
    Window.offset_ofBytes, Nat.zero_add, StoredParameter.length_flatMap_bytes]

/-- Every byte string is taken apart into whole parameters and what is cut after them, and
whole parameters alone, of values of any length, come back as they were stored. -/
theorem ofBytes_exact (table : LabelTable) :
    (∀ bs, (ofBytes table bs).Describes table bs) ∧
      ∀ stored : List StoredParameter,
        ofBytes table (stored.flatMap StoredParameter.bytes) =
          { parameters := stored.map (·.parameter table)
            consumed := (stored.map fun p => 4 + p.value.length).sum
            fault := none } :=
  ⟨ofBytes_describes table, ofBytes_stored table⟩

end ParameterList

end DriveLog.Hgst
