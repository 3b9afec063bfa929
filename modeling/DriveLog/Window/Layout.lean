import DriveLog.Window.InPlace

/-! Fixed layouts. A layout lists the fields of a record in page order, with the
reserved bytes between and after them, and gives the record's size, its reading and its
writing. Reading goes field by field behind one check of the whole size, so it is whole or
nothing; it looks at the fields' own bytes only, and writing what was read back over the
same bytes changes nothing. -/

namespace DriveLog

/-- The form in which one field stands on the page. -/
inductive Form where
  /-- A little-endian number. -/
  | number (width : Nat)
  | bytes (count : Nat)
  | array (count : Nat) (element : Form)
deriving DecidableEq, Repr

namespace Form

@[reducible] def Value : Form → Type
  | number _ => Nat
  | bytes _ => Bytes
  | array _ element => List element.Value

def size : Form → Nat
  | number width => width
  | bytes count => count
  | array count element => count * element.size

/-- The value at the head of a byte string. -/
def decode : (f : Form) → Bytes → f.Value
  | number width, bs => Bytes.ofLE (bs.take width)
  | bytes count, bs => bs.take count
  | array count element, bs =>
    (List.range count).map fun i => element.decode (bs.drop (i * element.size))

/-- Reads a value in place. An array is read element by element once all of it is there. -/
def read : (f : Form) → InPlace f.Value
  | number width => .single (Reader.number width)
  | bytes count => .single (Reader.take count)
  | array count element => .checked (count * element.size) (element.read.times count)

def encode : (f : Form) → f.Value → Bytes
  | number width, n => Bytes.toLE width n
  | bytes _, bs => bs
  | array _ element, vs => vs.flatMap element.encode

/-- An element of an array ends inside the array. -/
theorem element_le_size {count i : Nat} (hi : i ∈ List.range count) (element : Form) :
    i * element.size + element.size ≤ (array count element).size := by
  rw [← Nat.succ_mul]
  exact Nat.mul_le_mul_right _ (List.mem_range.mp hi)

/-- A value is made of its own bytes only. -/
theorem decode_take {f : Form} {n : Nat} (h : f.size ≤ n) (bs : Bytes) :
    f.decode (bs.take n) = f.decode bs := by
  induction f generalizing n bs with
  | number width => simp only [decode, List.take_take, Nat.min_eq_left (show width ≤ n from h)]
  | bytes count => simp only [decode, List.take_take, Nat.min_eq_left (show count ≤ n from h)]
  | array count element ih =>
    simp only [decode]
    apply List.map_congr_left
    intro i hi
    have hfit : i * element.size + element.size ≤ n :=
      Nat.le_trans (element_le_size hi element) h
    rw [List.drop_take]
    exact ih (by omega) _

theorem takes_read (f : Form) : f.read.Takes f.size f.decode := by
  induction f with
  | number width =>
    intro w hw
    exact InPlace.single_of_ok (Reader.number_of_le hw)
  | bytes count => exact InPlace.takes_take count
  | array count element ih =>
    intro w hw
    exact InPlace.checked_of_le (ih.times count) hw

/-- A value that does not fit is refused as a whole. -/
theorem read_of_lt {f : Form} {w : Window} (h : w.remaining < f.size) :
    f.read w = (.error (w.shortfall f.size), w) := by
  cases f with
  | number width => exact InPlace.single_of_error (Reader.number_of_lt h)
  | bytes count => exact InPlace.single_of_error (Reader.take_of_lt h)
  | array count element => exact InPlace.checked_of_lt h

end Form

/-- One part of a layout. -/
inductive Part where
  | field (form : Form)
  | gap (size : Nat)
deriving DecidableEq, Repr

namespace Part

abbrev uint8 : Part := .field (.number 1)
abbrev uint16 : Part := .field (.number 2)
abbrev uint32 : Part := .field (.number 4)
abbrev uint64 : Part := .field (.number 8)
abbrev uint128 : Part := .field (.number 16)

def size : Part → Nat
  | field form => form.size
  | gap n => n

end Part

abbrev Layout := List Part

namespace Layout

/-- The values of a layout's fields, in page order. -/
@[reducible] def Value : Layout → Type
  | [] => Unit
  | .field form :: rest => form.Value × Value rest
  | .gap _ :: rest => Value rest

def size : Layout → Nat
  | [] => 0
  | part :: rest => part.size + size rest

@[simp] theorem size_cons (part : Part) (rest : Layout) :
    size (part :: rest) = part.size + size rest := rfl

def decode : (l : Layout) → Bytes → l.Value
  | [], _ => ()
  | .field form :: rest, bs => (form.decode bs, decode rest (bs.drop form.size))
  | .gap n :: rest, bs => decode rest (bs.drop n)

/-- Reads field after field and moves past what stands between them. -/
def readFields : (l : Layout) → InPlace l.Value
  | [] => return ()
  | .field form :: rest => do
    let v ← form.read
    let vs ← readFields rest
    return (v, vs)
  | .gap n :: rest => do
    .single (Reader.skip n)
    readFields rest

def readInPlace (l : Layout) : InPlace l.Value := .checked l.size l.readFields

/-- Reads all fields or nothing. -/
def read (l : Layout) : Reader l.Value := l.readInPlace.probe

/-- The fields written over `base`, whose reserved bytes stay. -/
def encodeOver : (l : Layout) → l.Value → (base : Bytes) → Bytes
  | [], _, _ => []
  | .field form :: rest, (v, vs), base =>
    form.encode v ++ encodeOver rest vs (base.drop form.size)
  | .gap n :: rest, vs, base => base.take n ++ encodeOver rest vs (base.drop n)

theorem decode_take {l : Layout} {n : Nat} (h : l.size ≤ n) (bs : Bytes) :
    l.decode (bs.take n) = l.decode bs := by
  induction l generalizing n bs with
  | nil => rfl
  | cons part rest ih =>
    rw [size_cons] at h
    cases part with
    | field form =>
      have hform : form.size + size rest ≤ n := h
      simp only [decode, List.drop_take]
      rw [Form.decode_take (by omega), ih (by omega)]
    | gap k =>
      have hgap : k + size rest ≤ n := h
      simp only [decode, List.drop_take]
      rw [ih (by omega)]

theorem takes_readFields (l : Layout) : l.readFields.Takes l.size l.decode := by
  induction l with
  | nil => exact InPlace.takes_pure ()
  | cons part rest ih =>
    cases part with
    | field form => exact form.takes_read.bind fun v => ih.map fun vs => (v, vs)
    | gap n =>
      have hskip : (InPlace.single (Reader.skip n)).Takes n fun _ => () := by
        intro w hw
        exact InPlace.single_of_ok (Reader.skip_of_le hw)
      exact hskip.bind fun _ => ih

theorem readInPlace_of_le {l : Layout} {w : Window} (h : l.size ≤ w.remaining) :
    l.readInPlace w = (.ok (l.decode w.unread), w.advance l.size) :=
  InPlace.checked_of_le l.takes_readFields h

theorem readInPlace_of_lt {l : Layout} {w : Window} (h : w.remaining < l.size) :
    l.readInPlace w = (.error (w.shortfall l.size), w) :=
  InPlace.checked_of_lt h

theorem read_of_le {l : Layout} {w : Window} (h : l.size ≤ w.remaining) :
    l.read w = .ok (l.decode w.unread, w.advance l.size) := by
  rw [read, InPlace.probe, readInPlace_of_le h]

theorem read_of_lt {l : Layout} {w : Window} (h : w.remaining < l.size) :
    l.read w = .error (w.shortfall l.size) := by
  rw [read, InPlace.probe, readInPlace_of_lt h]

end Layout

/-- A structure that stands on the page in a fixed layout. -/
class Record (α : Type) where
  layout : Layout
  ofFields : layout.Value → α
  fields : α → layout.Value
  ofFields_fields : ∀ a, ofFields (fields a) = a := by intro _; rfl
  fields_ofFields : ∀ v, fields (ofFields v) = v := by intro _; rfl

namespace Record

variable (α : Type) [Record α]

/-- The bytes a record takes, reserved ones included. -/
def size : Nat := (layout α).size

variable {α}

/-- The record at the head of a byte string of at least its size. -/
def decode (bs : Bytes) : α := ofFields ((layout α).decode bs)

/-- Reads a whole record or nothing. -/
def read : Reader α := ofFields <$> (layout α).read

def ofBytes? (bs : Bytes) : Except Shortfall α :=
  (read (.ofBytes bs)).map Prod.fst

/-- A record is made of its own bytes only. -/
theorem decode_take {n : Nat} (h : size α ≤ n) (bs : Bytes) :
    (decode (bs.take n) : α) = decode bs := by
  simp only [decode, Layout.decode_take (show (layout α).size ≤ n from h)]

theorem read_of_le {w : Window} (h : size α ≤ w.remaining) :
    read w = .ok ((decode w.unread : α), w.advance (size α)) :=
  Reader.map_eq_ok_iff.mpr ⟨_, Layout.read_of_le h, rfl⟩

theorem read_of_lt {w : Window} (h : w.remaining < size α) :
    (read w : Except Shortfall (α × Window)) = .error (w.shortfall (size α)) :=
  Reader.map_of_error (Layout.read_of_lt h)

theorem ofBytes?_of_le {bs : Bytes} (h : size α ≤ bs.length) :
    ofBytes? bs = .ok (decode bs : α) := by
  rw [ofBytes?, read_of_le h]
  rfl

theorem ofBytes?_of_lt {bs : Bytes} (h : bs.length < size α) :
    (ofBytes? bs : Except Shortfall α) = .error ⟨0, size α, bs.length⟩ := by
  rw [ofBytes?, read_of_lt h]
  rfl

end Record

end DriveLog
