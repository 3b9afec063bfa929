import DriveLog.Bytes.LittleEndian
import DriveLog.Shortfall

/-! Windows on a log page. A window knows where on the page it starts, how far it has
been read and what is left, so that a read that does not fit can name its page offset.
Readers are the ways to move one: each takes a known number of bytes or refuses and
leaves the window as it was. -/

namespace DriveLog

structure Window where
  /-- The page offset of the first byte. -/
  start : Nat
  /-- How many bytes have been read. -/
  offset : Nat
  unread : Bytes
  /-- How many bytes are left, kept so that a read need not count them. -/
  remaining : Nat := unread.length
  remaining_eq : remaining = unread.length := by rfl
deriving DecidableEq, Repr

namespace Window

def ofBytes (bs : Bytes) : Window := { start := 0, offset := 0, unread := bs }

/-- The page offset of the next byte. -/
def position (w : Window) : Nat := w.start + w.offset

def isEmpty (w : Window) : Bool := w.unread.isEmpty

def advance (w : Window) (n : Nat) : Window where
  start := w.start
  offset := w.offset + n
  unread := w.unread.drop n
  remaining := w.remaining - n
  remaining_eq := by rw [w.remaining_eq, List.length_drop]

/-- What a read of `n` bytes reports when they do not fit. -/
def shortfall (w : Window) (n : Nat) : Shortfall := ⟨w.position, n, w.remaining⟩

@[simp] theorem position_ofBytes (bs : Bytes) : (ofBytes bs).position = 0 := rfl

@[simp] theorem offset_ofBytes (bs : Bytes) : (ofBytes bs).offset = 0 := rfl

@[simp] theorem remaining_ofBytes (bs : Bytes) : (ofBytes bs).remaining = bs.length := rfl

@[simp] theorem unread_ofBytes (bs : Bytes) : (ofBytes bs).unread = bs := rfl

@[simp] theorem position_advance (w : Window) (n : Nat) :
    (w.advance n).position = w.position + n := by
  simp [position, advance, Nat.add_assoc]

@[simp] theorem offset_advance (w : Window) (n : Nat) :
    (w.advance n).offset = w.offset + n := rfl

@[simp] theorem remaining_advance (w : Window) (n : Nat) :
    (w.advance n).remaining = w.remaining - n := rfl

@[simp] theorem unread_advance (w : Window) (n : Nat) :
    (w.advance n).unread = w.unread.drop n := rfl

@[simp] theorem advance_advance (w : Window) (m n : Nat) :
    (w.advance m).advance n = w.advance (m + n) := by
  simp [advance, Nat.add_assoc, Nat.sub_sub]

@[simp] theorem advance_zero (w : Window) : w.advance 0 = w := by
  simp [advance]

end Window

/-- A way to read from a window. A refusal leaves the caller's window where it was. -/
abbrev Reader := StateT Window (Except Shortfall)

namespace Reader

/-- Reads the next `n` bytes; every other reader that moves the window is made from this one. -/
def take (n : Nat) : Reader Bytes := fun w =>
  if n ≤ w.remaining then .ok (w.unread.take n, w.advance n) else .error (w.shortfall n)

/-- Checks that `n` bytes are left and reads none. -/
def demand (n : Nat) : Reader Unit := fun w =>
  if n ≤ w.remaining then .ok ((), w) else .error (w.shortfall n)

def skip (n : Nat) : Reader Unit := do
  let _ ← take n

/-- A little-endian number of `width` bytes. -/
def number (width : Nat) : Reader Nat := Bytes.ofLE <$> take width

def position : Reader Nat := fun w => .ok (w.position, w)

def remaining : Reader Nat := fun w => .ok (w.remaining, w)

/-- The next `n` bytes as a window of their own, which keeps page offsets. -/
def window (n : Nat) : Reader Window := do
  let start ← position
  let bs ← take n
  return { start, offset := 0, unread := bs }

theorem take_of_le {n : Nat} {w : Window} (h : n ≤ w.remaining) :
    take n w = .ok (w.unread.take n, w.advance n) := if_pos h

theorem take_of_lt {n : Nat} {w : Window} (h : w.remaining < n) :
    take n w = .error (w.shortfall n) := if_neg (Nat.not_le.mpr h)

theorem demand_of_le {n : Nat} {w : Window} (h : n ≤ w.remaining) :
    demand n w = .ok ((), w) := if_pos h

theorem demand_of_lt {n : Nat} {w : Window} (h : w.remaining < n) :
    demand n w = .error (w.shortfall n) := if_neg (Nat.not_le.mpr h)

theorem take_eq_ok_iff {n : Nat} {w w' : Window} {bs : Bytes} :
    take n w = .ok (bs, w') ↔ n ≤ w.remaining ∧ bs = w.unread.take n ∧ w' = w.advance n := by
  by_cases h : n ≤ w.remaining
  · simp [take_of_le h, h, eq_comm]
  · simp [take_of_lt (Nat.not_le.mp h), h]

variable {α β : Type} {n : Nat} {w w' : Window}

theorem bind_eq_ok_iff {x : Reader α} {f : α → Reader β} {b : β} :
    (x >>= f) w = .ok (b, w') ↔ ∃ a v, x w = .ok (a, v) ∧ f a v = .ok (b, w') := by
  simp only [bind, StateT.bind]
  cases h : x w with
  | error e => simp [Except.bind]
  | ok r =>
    obtain ⟨a, v⟩ := r
    simp only [Except.bind, Except.ok.injEq, Prod.mk.injEq]
    constructor
    · intro hf
      exact ⟨a, v, ⟨rfl, rfl⟩, hf⟩
    · rintro ⟨_, _, ⟨rfl, rfl⟩, hf⟩
      exact hf

theorem map_eq_ok_iff {f : α → β} {x : Reader α} {b : β} :
    (f <$> x) w = .ok (b, w') ↔ ∃ a, x w = .ok (a, w') ∧ f a = b := by
  simp only [Functor.map, StateT.map, bind, Except.bind]
  cases h : x w with
  | error e => simp
  | ok r =>
    obtain ⟨a, v⟩ := r
    simp only [pure, Except.pure, Except.ok.injEq, Prod.mk.injEq]
    constructor
    · rintro ⟨hf, rfl⟩
      exact ⟨a, ⟨rfl, rfl⟩, hf⟩
    · rintro ⟨_, ⟨rfl, rfl⟩, hf⟩
      exact ⟨hf, rfl⟩

theorem bind_of_ok {x : Reader α} {f : α → Reader β} {a : α} (h : x w = .ok (a, w')) :
    (x >>= f) w = f a w' := by
  simp [bind, StateT.bind, Except.bind, h]

theorem bind_of_error {x : Reader α} {f : α → Reader β} {e : Shortfall}
    (h : x w = .error e) : (x >>= f) w = .error e := by
  simp [bind, StateT.bind, Except.bind, h]

theorem map_of_error {x : Reader α} {f : α → β} {e : Shortfall} (h : x w = .error e) :
    (f <$> x) w = .error e := by
  simp [Functor.map, StateT.map, bind, Except.bind, h]

theorem pure_eq_ok_iff {a b : α} : (pure a : Reader α) w = .ok (b, w') ↔ b = a ∧ w' = w := by
  have hpure : (pure a : Reader α) w = .ok (a, w) := rfl
  rw [hpure]
  simp [eq_comm]

theorem number_eq_ok_iff {v : Nat} :
    number n w = .ok (v, w') ↔
      n ≤ w.remaining ∧ v = Bytes.ofLE (w.unread.take n) ∧ w' = w.advance n := by
  simp only [number, map_eq_ok_iff, take_eq_ok_iff]
  constructor
  · rintro ⟨_, ⟨hn, rfl, hw⟩, rfl⟩
    exact ⟨hn, rfl, hw⟩
  · rintro ⟨hn, rfl, hw⟩
    exact ⟨_, ⟨hn, rfl, hw⟩, rfl⟩

theorem skip_eq_ok_iff {u : Unit} :
    skip n w = .ok (u, w') ↔ n ≤ w.remaining ∧ w' = w.advance n := by
  simp only [skip, bind_eq_ok_iff, take_eq_ok_iff, pure_eq_ok_iff]
  constructor
  · rintro ⟨_, _, ⟨hn, _, rfl⟩, _, rfl⟩
    exact ⟨hn, rfl⟩
  · rintro ⟨hn, rfl⟩
    exact ⟨_, _, ⟨hn, rfl, rfl⟩, trivial, rfl⟩

theorem position_eq_ok_iff {p : Nat} :
    position w = .ok (p, w') ↔ p = w.position ∧ w' = w := by
  simp [position, eq_comm]

theorem run_position : position w = .ok (w.position, w) := rfl

theorem run_remaining : remaining w = .ok (w.remaining, w) := rfl

theorem number_of_le (h : n ≤ w.remaining) :
    number n w = .ok (Bytes.ofLE (w.unread.take n), w.advance n) :=
  number_eq_ok_iff.mpr ⟨h, rfl, rfl⟩

theorem number_of_lt (h : w.remaining < n) : number n w = .error (w.shortfall n) :=
  map_of_error (take_of_lt h)

theorem skip_of_le (h : n ≤ w.remaining) : skip n w = .ok ((), w.advance n) :=
  skip_eq_ok_iff.mpr ⟨h, rfl⟩

theorem skip_of_lt (h : w.remaining < n) : skip n w = .error (w.shortfall n) :=
  bind_of_error (take_of_lt h)

theorem window_of_le (h : n ≤ w.remaining) :
    window n w =
      .ok ({ start := w.position, offset := 0, unread := w.unread.take n }, w.advance n) := by
  rw [window, bind_of_ok run_position, bind_of_ok (take_of_le h)]
  rfl

theorem window_of_lt (h : w.remaining < n) : window n w = .error (w.shortfall n) := by
  rw [window, bind_of_ok run_position]
  exact bind_of_error (take_of_lt h)

end Reader

end DriveLog
