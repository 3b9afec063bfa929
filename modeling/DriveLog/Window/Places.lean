import DriveLog.Bytes.Slots
import DriveLog.Window.Layout

/-! Where the fields of a layout stand. A field begins behind all that is listed before it,
fields and reserved bytes alike, and is made of the bytes of its own place. Writing the
fields back to their places gives the bytes they were read from. -/

namespace DriveLog

namespace Form

/-- The value of this form that begins at a byte offset. -/
def valueAt : (f : Form) → (offset : Nat) → Bytes → f.Value
  | number width, offset, bs => bs.numberAt offset width
  | bytes count, offset, bs => bs.slice offset count
  | array count element, offset, bs =>
    (List.range count).map fun i => element.valueAt (offset + i * element.size) bs

theorem decode_drop (f : Form) (offset : Nat) (bs : Bytes) :
    f.decode (bs.drop offset) = f.valueAt offset bs := by
  induction f generalizing offset with
  | number width => rfl
  | bytes count => rfl
  | array count element ih => simp only [decode, valueAt, List.drop_drop, ih]

theorem valueAt_congr {f : Form} {offset : Nat} {bs bs' : Bytes}
    (h : ∀ k, offset ≤ k → k < offset + f.size → bs[k]? = bs'[k]?) :
    f.valueAt offset bs = f.valueAt offset bs' := by
  induction f generalizing offset with
  | number width => exact Bytes.numberAt_congr h
  | bytes count => exact Bytes.slice_congr h
  | array count element ih =>
    simp only [valueAt]
    apply List.map_congr_left
    intro i hi
    have hfit := element_le_size hi element
    apply ih
    intro k hle hk
    exact h k (by omega) (by omega)

/-- Writing a value back gives the bytes it was read from. -/
theorem encode_decode {f : Form} {bs : Bytes} (h : f.size ≤ bs.length) :
    f.encode (f.decode bs) = bs.take f.size := by
  induction f generalizing bs with
  | number width =>
    have hlen : (bs.take width).length = width := List.length_take_of_le h
    have hback := Bytes.toLE_ofLE (bs.take width)
    rw [hlen] at hback
    exact hback
  | bytes count => rfl
  | array count element ih =>
    have helement : ∀ i ∈ List.range count,
        element.encode (element.decode (bs.drop (element.size * i))) =
          (bs.drop (element.size * i)).take element.size := by
      intro i hi
      have hfit := element_le_size hi element
      apply ih
      rw [List.length_drop, Nat.mul_comm]
      omega
    simp only [encode, decode, size, Nat.mul_comm _ element.size]
    rw [List.flatMap_def, List.map_map, Function.comp_def, List.map_congr_left helement,
      ← Bytes.pieces_eq, Bytes.flatten_pieces]

end Form

/-- A form and the byte offset at which its value begins. -/
structure Layout.Place where
  offset : Nat
  form : Form
deriving DecidableEq, Repr

namespace Layout.Place

/-- The byte offset just behind the value. -/
def past (p : Place) : Nat := p.offset + p.form.size

def Covers (p : Place) (k : Nat) : Prop := p.offset ≤ k ∧ k < p.past

end Layout.Place

namespace Layout

/-- The places of the fields of a layout that begins at a byte offset. -/
def placesFrom : Layout → (offset : Nat) → List Place
  | [], _ => []
  | .field form :: rest, offset => ⟨offset, form⟩ :: placesFrom rest (offset + form.size)
  | .gap n :: rest, offset => placesFrom rest (offset + n)

def places (l : Layout) : List Place := l.placesFrom 0

/-- The values of the fields of a layout that begins at a byte offset. -/
def valuesFrom : (l : Layout) → (offset : Nat) → Bytes → l.Value
  | [], _, _ => ()
  | .field form :: rest, offset, bs =>
    (form.valueAt offset bs, valuesFrom rest (offset + form.size) bs)
  | .gap n :: rest, offset, bs => valuesFrom rest (offset + n) bs

theorem decode_drop (l : Layout) (offset : Nat) (bs : Bytes) :
    l.decode (bs.drop offset) = l.valuesFrom offset bs := by
  induction l generalizing offset with
  | nil => rfl
  | cons part rest ih =>
    cases part with
    | field form => simp only [decode, valuesFrom, Form.decode_drop, List.drop_drop, ih]
    | gap n => simp only [decode, valuesFrom, List.drop_drop, ih]

/-- Bytes at no field's place have no part in the values. -/
theorem valuesFrom_congr {l : Layout} {offset : Nat} {bs bs' : Bytes}
    (h : ∀ p ∈ l.placesFrom offset, ∀ k, p.Covers k → bs[k]? = bs'[k]?) :
    l.valuesFrom offset bs = l.valuesFrom offset bs' := by
  induction l generalizing offset with
  | nil => rfl
  | cons part rest ih =>
    cases part with
    | field form =>
      have hfield : form.valueAt offset bs = form.valueAt offset bs' :=
        Form.valueAt_congr fun k hle hlt => h ⟨offset, form⟩ List.mem_cons_self k ⟨hle, hlt⟩
      have hrest := ih fun p hp => h p (List.mem_cons_of_mem _ hp)
      rw [valuesFrom, valuesFrom, hfield, hrest]
    | gap n => exact ih h

/-- A field stands behind the sizes of all the parts that are listed before it. -/
theorem mem_placesFrom {l : Layout} {offset : Nat} {p : Place} :
    p ∈ l.placesFrom offset ↔
      ∃ before after, l = before ++ .field p.form :: after ∧ p.offset = offset + size before := by
  induction l generalizing offset with
  | nil => simp [placesFrom]
  | cons part rest ih =>
    constructor
    · intro hp
      have hcases : part = .field p.form ∧ p.offset = offset ∨
          p ∈ placesFrom rest (offset + part.size) := by
        cases part with
        | field form =>
          rcases List.mem_cons.mp hp with rfl | hp
          · exact Or.inl ⟨rfl, rfl⟩
          · exact Or.inr hp
        | gap n => exact Or.inr hp
      rcases hcases with ⟨rfl, hoffset⟩ | hp
      · exact ⟨[], rest, rfl, hoffset⟩
      · obtain ⟨before, after, rfl, hoffset⟩ := ih.mp hp
        refine ⟨part :: before, after, rfl, ?_⟩
        rw [hoffset, size_cons, Nat.add_assoc]
    · rintro ⟨before, after, heq, hoffset⟩
      cases before with
      | nil =>
        obtain ⟨rfl, rfl⟩ := List.cons.inj heq
        obtain ⟨_, _⟩ := p
        obtain rfl := hoffset
        exact List.mem_cons_self
      | cons first before =>
        obtain ⟨rfl, rfl⟩ := List.cons.inj heq
        rw [size_cons, ← Nat.add_assoc] at hoffset
        have hp := ih.mpr ⟨before, after, rfl, hoffset⟩
        cases part with
        | field form => exact List.mem_cons_of_mem _ hp
        | gap n => exact hp

theorem mem_places {l : Layout} {p : Place} :
    p ∈ l.places ↔
      ∃ before after, l = before ++ .field p.form :: after ∧ p.offset = size before := by
  simp only [places, mem_placesFrom, Nat.zero_add]

theorem size_append (before after : Layout) :
    size (before ++ after) = size before + size after := by
  induction before with
  | nil => exact (Nat.zero_add _).symm
  | cons part before ih => rw [List.cons_append, size_cons, size_cons, ih, Nat.add_assoc]

/-- No field reaches past the end of its layout. -/
theorem past_le_size {l : Layout} {p : Place} (hp : p ∈ l.places) : p.past ≤ l.size := by
  obtain ⟨before, after, rfl, hoffset⟩ := mem_places.mp hp
  have hform : Part.size (.field p.form) = p.form.size := rfl
  rw [size_append, size_cons, hform]
  unfold Place.past
  omega

/-- Writing the fields back over the bytes they were read from changes none. -/
theorem encodeOver_decode {l : Layout} {bs : Bytes} (h : l.size ≤ bs.length) :
    l.encodeOver (l.decode bs) bs = bs.take l.size := by
  induction l generalizing bs with
  | nil => rfl
  | cons part rest ih =>
    have hsize : part.size + size rest ≤ bs.length := h
    have hrest : encodeOver rest (decode rest (bs.drop part.size)) (bs.drop part.size) =
        (bs.drop part.size).take (size rest) := by
      apply ih
      rw [List.length_drop]
      omega
    rw [size_cons, List.take_add, ← hrest]
    cases part with
    | field form =>
      have hform : form.size ≤ bs.length := Nat.le_trans (Nat.le_add_right _ _) hsize
      simp only [encodeOver, decode, Form.encode_decode hform]
      rfl
    | gap n => rfl

/-! ## Layouts without reserved bytes -/

/-- No byte of the layout is reserved. -/
def IsDense (l : Layout) : Prop := ∀ n, .gap n ∉ l

theorem encodeOver_congr {l : Layout} (h : l.IsDense) (values : l.Value) (base base' : Bytes) :
    l.encodeOver values base = l.encodeOver values base' := by
  induction l generalizing base base' with
  | nil => rfl
  | cons part rest ih =>
    have hrest : IsDense rest := fun n hmem => h n (List.mem_cons_of_mem part hmem)
    cases part with
    | field form => exact congrArg (form.encode values.1 ++ ·) (ih hrest values.2 _ _)
    | gap n => exact absurd List.mem_cons_self (h n)

/-- Where none is reserved, the values tell every byte. -/
theorem decode_eq_iff {l : Layout} {bs bs' : Bytes} (hdense : l.IsDense) (h : l.size ≤ bs.length)
    (h' : l.size ≤ bs'.length) : l.decode bs = l.decode bs' ↔ bs.take l.size = bs'.take l.size := by
  constructor
  · intro heq
    rw [← encodeOver_decode h, ← encodeOver_decode h', heq]
    exact encodeOver_congr hdense _ bs bs'
  · intro heq
    rw [← decode_take (Nat.le_refl _) bs, heq, decode_take (Nat.le_refl _)]

end Layout

/-- A record without reserved bytes tells all of its bytes. -/
theorem Record.decode_eq_iff {α : Type} [Record α] {bs bs' : Bytes} (hdense : (layout α).IsDense)
    (h : size α ≤ bs.length) (h' : size α ≤ bs'.length) :
    (decode bs : α) = decode bs' ↔ bs.take (size α) = bs'.take (size α) := by
  rw [size, ← Layout.decode_eq_iff hdense h h']
  refine ⟨fun heq => ?_, congrArg ofFields⟩
  rw [← fields_ofFields ((layout α).decode bs), ← fields_ofFields ((layout α).decode bs')]
  exact congrArg fields heq

end DriveLog
