import DriveLog.Window.Basic

/-! Lists without a count. On a walk items are read one after another until the window is
used up or the next item does not fit. A series goes on as long as a condition on the
window holds, and up to the first item that is not to be kept. Each item takes at least one
byte, so both end. What was found before the end stays, whatever the end was. -/

namespace DriveLog

/-- A reader that always moves its window. -/
structure ItemReader (α : Type) where
  read : Reader α
  remaining_lt : ∀ {w : Window} {a : α} {w' : Window},
    read w = .ok (a, w') → w'.remaining < w.remaining

/-- What a walk found, in the order in which it stands on the page. -/
structure Walk (α : Type) where
  items : List α
  /-- The window just past the last whole item. -/
  rest : Window
  /-- Why the item after that did not fit, unless the window was used up. -/
  fault : Option Shortfall

/-- Which items a series lists, and as what, and what is wrong where it ends. -/
structure SeriesRule (α β ε : Type) where
  /-- Whether the series goes on with this item. -/
  keep : α → Bool
  value : α → β
  /-- What is wrong with a series that this item ends, if anything is. -/
  faultOf : α → Option ε
  /-- What is wrong with a series in which an item is refused. -/
  refused : Shortfall → ε

/-- What a series listed, in the order in which it stands on the page. -/
structure Series (β ε : Type) where
  items : List β
  /-- The window just past the last item read, the one that ended the series included. -/
  rest : Window
  fault : Option ε

namespace ItemReader

/-- Walks on behind items already found, which are given last first. -/
def walkFrom {α : Type} (item : ItemReader α) (found : List α) (w : Window) : Walk α :=
  if w.remaining = 0 then ⟨found.reverse, w, none⟩
  else
    match _h : item.read w with
    | .error e => ⟨found.reverse, w, some e⟩
    | .ok (a, w') => item.walkFrom (a :: found) w'
termination_by w.remaining
decreasing_by exact item.remaining_lt _h

def walk {α : Type} (item : ItemReader α) (w : Window) : Walk α := item.walkFrom [] w

/-- Items listed behind those already found, which are given last first. The item that ends
the series is read but not listed. -/
def series {α β ε : Type} (item : ItemReader α) (more : Window → Bool)
    (rule : SeriesRule α β ε) (found : List β) (w : Window) : Series β ε :=
  if more w then
    match _h : item.read w with
    | .error e => ⟨found.reverse, w, some (rule.refused e)⟩
    | .ok (a, w') =>
      if rule.keep a then item.series more rule (rule.value a :: found) w'
      else ⟨found.reverse, w', rule.faultOf a⟩
  else ⟨found.reverse, w, none⟩
termination_by w.remaining
decreasing_by exact item.remaining_lt _h

/-- The items of a series as they are read. One that is refused refuses the whole series. -/
def series? {α : Type} (item : ItemReader α) (more : Window → Bool) (keep : α → Bool)
    (w : Window) : Except Shortfall (List α × Window) :=
  let s := item.series more ⟨keep, id, fun _ => none, id⟩ [] w
  match s.fault with
  | none => .ok (s.items, s.rest)
  | some e => .error e

variable {α : Type} {item : ItemReader α} {w w' : Window} {a : α} {e : Shortfall}

theorem walkFrom_of_remaining_eq_zero {found : List α} (h : w.remaining = 0) :
    item.walkFrom found w = ⟨found.reverse, w, none⟩ := by
  rw [walkFrom, if_pos h]

theorem walkFrom_of_error {found : List α} (h : w.remaining ≠ 0)
    (hr : item.read w = .error e) :
    item.walkFrom found w = ⟨found.reverse, w, some e⟩ := by
  rw [walkFrom, if_neg h]
  split
  · rename_i e' he
    rw [hr] at he
    cases he
    rfl
  · rename_i he
    rw [hr] at he
    cases he

theorem walkFrom_of_ok {found : List α} (hr : item.read w = .ok (a, w')) :
    item.walkFrom found w = item.walkFrom (a :: found) w' := by
  have hlt := item.remaining_lt hr
  rw [walkFrom, if_neg (by omega)]
  split
  · rename_i he
    rw [hr] at he
    cases he
  · rename_i he
    rw [hr] at he
    cases he
    rfl

/-- What was found before stands before what is found. -/
theorem walkFrom_eq (item : ItemReader α) (found : List α) (w : Window) :
    item.walkFrom found w =
      { item.walk w with items := found.reverse ++ (item.walk w).items } := by
  by_cases h : w.remaining = 0
  · simp [walk, walkFrom_of_remaining_eq_zero h]
  · cases hr : item.read w with
    | error e => simp [walk, walkFrom_of_error h hr]
    | ok r =>
      obtain ⟨a, w'⟩ := r
      have hlt := item.remaining_lt hr
      simp only [walk, walkFrom_of_ok hr]
      rw [walkFrom_eq item (a :: found) w', walkFrom_eq item [a] w']
      simp
termination_by w.remaining

theorem walk_of_remaining_eq_zero (h : w.remaining = 0) : item.walk w = ⟨[], w, none⟩ :=
  walkFrom_of_remaining_eq_zero h

theorem walk_of_error (h : w.remaining ≠ 0) (hr : item.read w = .error e) :
    item.walk w = ⟨[], w, some e⟩ := walkFrom_of_error h hr

theorem walk_of_ok (hr : item.read w = .ok (a, w')) :
    item.walk w = { item.walk w' with items := a :: (item.walk w').items } := by
  rw [walk, walkFrom_of_ok hr, walkFrom_eq]
  simp

/-- The items are read one after another, which leads from `w` to `w'`. -/
inductive Reads (item : ItemReader α) : Window → List α → Window → Prop
  | nil {w : Window} : Reads item w [] w
  | cons {w v w' : Window} {a : α} {as : List α} :
      item.read w = .ok (a, v) → Reads item v as w' → Reads item w (a :: as) w'

theorem walk_reads (item : ItemReader α) (w : Window) :
    item.Reads w (item.walk w).items (item.walk w).rest := by
  by_cases h : w.remaining = 0
  · rw [walk_of_remaining_eq_zero h]
    exact .nil
  · cases hr : item.read w with
    | error e =>
      rw [walk_of_error h hr]
      exact .nil
    | ok r =>
      obtain ⟨a, w'⟩ := r
      have hlt := item.remaining_lt hr
      rw [walk_of_ok hr]
      exact .cons hr (walk_reads item w')
termination_by w.remaining

/-- What holds of every item that can be read holds of all that are read. -/
theorem Reads.forall_mem {P : α → Prop} {as : List α}
    (hP : ∀ {v : Window} {a : α} {v' : Window}, item.read v = .ok (a, v') → P a)
    (h : item.Reads w as w') : ∀ a ∈ as, P a := by
  induction h with
  | nil =>
    intro a ha
    cases ha
  | cons hr _ ih =>
    intro a ha
    rcases List.mem_cons.mp ha with rfl | ha
    · exact hP hr
    · exact ih a ha

/-- A walk ends where its window is used up or the next item is refused. -/
theorem walk_stops (item : ItemReader α) (w : Window) :
    match (item.walk w).fault with
    | none => (item.walk w).rest.remaining = 0
    | some e => (item.walk w).rest.remaining ≠ 0 ∧ item.read (item.walk w).rest = .error e := by
  by_cases h : w.remaining = 0
  · rw [walk_of_remaining_eq_zero h]
    exact h
  · cases hr : item.read w with
    | error e =>
      rw [walk_of_error h hr]
      exact ⟨h, hr⟩
    | ok r =>
      obtain ⟨a, w'⟩ := r
      have hlt := item.remaining_lt hr
      rw [walk_of_ok hr]
      exact walk_stops item w'
termination_by w.remaining

/-- A walk started where another has ended finds nothing more and ends for the same reason. -/
theorem walk_rest (item : ItemReader α) (w : Window) :
    item.walk (item.walk w).rest = ⟨[], (item.walk w).rest, (item.walk w).fault⟩ := by
  have hstops := item.walk_stops w
  cases hfault : (item.walk w).fault with
  | none =>
    rw [hfault] at hstops
    exact walk_of_remaining_eq_zero hstops
  | some e =>
    rw [hfault] at hstops
    obtain ⟨hne, herror⟩ := hstops
    exact walk_of_error hne herror

/-- A walk finds every item that can be read, in order. -/
theorem walk_of_reads {as : List α} (h : item.Reads w as w') :
    item.walk w = { item.walk w' with items := as ++ (item.walk w').items } := by
  induction h with
  | nil => rfl
  | cons hr _ ih => rw [walk_of_ok hr, ih, List.cons_append]

/-- Items that use the window up are all that a walk finds. -/
theorem walk_of_reads_all {as : List α} (h : item.Reads w as w') (hw : w'.remaining = 0) :
    item.walk w = ⟨as, w', none⟩ := by
  rw [walk_of_reads h, walk_of_remaining_eq_zero hw, List.append_nil]

variable {β ε : Type} {more : Window → Bool} {rule : SeriesRule α β ε} {found : List β}

theorem series_of_not_more (h : more w = false) :
    item.series more rule found w = ⟨found.reverse, w, none⟩ := by
  rw [series, if_neg (by simp [h])]

theorem series_of_keep (h : more w = true) (hr : item.read w = .ok (a, w'))
    (hk : rule.keep a = true) :
    item.series more rule found w = item.series more rule (rule.value a :: found) w' := by
  rw [series, if_pos h]
  split
  · rename_i he
    rw [hr] at he
    cases he
  · rename_i he
    rw [hr] at he
    cases he
    rw [if_pos hk]

theorem series_of_not_keep (h : more w = true) (hr : item.read w = .ok (a, w'))
    (hk : rule.keep a = false) :
    item.series more rule found w = ⟨found.reverse, w', rule.faultOf a⟩ := by
  rw [series, if_pos h]
  split
  · rename_i he
    rw [hr] at he
    cases he
  · rename_i he
    rw [hr] at he
    cases he
    rw [if_neg (by simp [hk])]

end ItemReader

end DriveLog
