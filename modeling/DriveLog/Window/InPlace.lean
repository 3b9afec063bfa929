import DriveLog.Window.Basic

/-! Reading a window in place. A refusal in the middle of a longer reading would leave the
window moved by what was read before it, so a reading that is to be whole or nothing has
to check first that all of it is there. `Takes` says that such a check is enough. -/

namespace DriveLog

/-- A way to read from a window that keeps, also when it is refused, how far it has come. -/
abbrev InPlace := ExceptT Shortfall (StateM Window)

namespace InPlace

variable {α β : Type}

/-- A single read moves the window, or is refused before it has moved. -/
def single (x : Reader α) : InPlace α := fun w =>
  match x w with
  | .ok (a, w') => (.ok a, w')
  | .error e => (.error e, w)

/-- The reading made on a copy, which takes the window's place if nothing was refused. -/
def probe (x : InPlace α) : Reader α := fun w =>
  match x w with
  | (.ok a, w') => .ok (a, w')
  | (.error e, _) => .error e

/-- So many readings, one after another. -/
def times (x : InPlace α) : Nat → InPlace (List α)
  | 0 => return []
  | n + 1 => do
    let a ← x
    let as ← times x n
    return a :: as

/-- Checks that `n` bytes are left before it reads. -/
def checked (n : Nat) (x : InPlace α) : InPlace α := do
  single (Reader.demand n)
  x

theorem run_bind (x : InPlace α) (f : α → InPlace β) (w : Window) :
    (x >>= f) w =
      match x w with
      | (.ok a, w') => f a w'
      | (.error e, w') => (.error e, w') := by
  cases h : x w with
  | mk r w' =>
    cases r with
    | ok a =>
      simp only [bind, ExceptT.bind, ExceptT.mk, StateT.bind, h]
      rfl
    | error e =>
      simp only [bind, ExceptT.bind, ExceptT.mk, StateT.bind, h]
      rfl

theorem run_pure (a : α) (w : Window) : (pure a : InPlace α) w = (.ok a, w) := rfl

theorem run_get (w : Window) : (get : InPlace Window) w = (.ok w, w) := rfl

theorem single_of_ok {x : Reader α} {w w' : Window} {a : α} (h : x w = .ok (a, w')) :
    single x w = (.ok a, w') := by
  simp [single, h]

theorem single_of_error {x : Reader α} {w : Window} {e : Shortfall} (h : x w = .error e) :
    single x w = (.error e, w) := by
  simp [single, h]

/-! ## Readings that cannot be refused once their bytes are there -/

/-- With `n` bytes left the reading moves past them and makes `f` of what is unread. -/
def Takes (x : InPlace α) (n : Nat) (f : Bytes → α) : Prop :=
  ∀ w : Window, n ≤ w.remaining → x w = (.ok (f w.unread), w.advance n)

theorem takes_pure (a : α) : Takes (pure a) 0 fun _ => a := by
  intro w _
  rw [run_pure, Window.advance_zero]

theorem takes_take (n : Nat) : Takes (single (Reader.take n)) n (List.take n) := by
  intro w hn
  exact single_of_ok (Reader.take_of_le hn)

/-- The second of two readings sees what the first has left. -/
theorem Takes.bind {x : InPlace α} {m n : Nat} {f : Bytes → α} {y : α → InPlace β}
    {g : α → Bytes → β} (hx : Takes x m f) (hy : ∀ a, Takes (y a) n (g a)) :
    Takes (x >>= y) (m + n) fun bs => g (f bs) (bs.drop m) := by
  intro w hmn
  rw [run_bind, hx w (by omega)]
  simp only
  rw [hy _ _ (by rw [Window.remaining_advance]; omega), Window.unread_advance,
    Window.advance_advance]

theorem Takes.map {x : InPlace α} {n : Nat} {f : Bytes → α} (hx : Takes x n f) (g : α → β) :
    Takes (x >>= fun a => pure (g a)) n fun bs => g (f bs) :=
  hx.bind (n := 0) fun a => takes_pure (g a)

theorem Takes.times {x : InPlace α} {n : Nat} {f : Bytes → α} (hx : Takes x n f)
    (count : Nat) :
    Takes (x.times count) (count * n) fun bs =>
      (List.range count).map fun i => f (bs.drop (i * n)) := by
  induction count with
  | zero =>
    rw [Nat.zero_mul]
    exact takes_pure []
  | succ count ih =>
    have h := hx.bind fun a => ih.map (a :: ·)
    have hsize : n + count * n = (count + 1) * n := by rw [Nat.succ_mul, Nat.add_comm]
    rw [hsize] at h
    intro w hw
    refine (h w hw).trans ?_
    have hshift : ∀ i, n + i * n = (i + 1) * n := fun i => by rw [Nat.succ_mul, Nat.add_comm]
    simp [List.range_succ_eq_map, Function.comp_def, hshift]

/-- After its check the reading is whole; before it nothing has moved. -/
theorem checked_of_le {x : InPlace α} {n : Nat} {f : Bytes → α} {w : Window}
    (hx : Takes x n f) (h : n ≤ w.remaining) :
    checked n x w = (.ok (f w.unread), w.advance n) := by
  rw [checked, run_bind, single_of_ok (Reader.demand_of_le h)]
  exact hx w h

theorem checked_of_lt {x : InPlace α} {n : Nat} {w : Window} (h : w.remaining < n) :
    checked n x w = (.error (w.shortfall n), w) := by
  rw [checked, run_bind, single_of_error (Reader.demand_of_lt h)]

end InPlace

end DriveLog
