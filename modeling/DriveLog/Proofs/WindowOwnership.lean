import DriveLog.Window.Family
import DriveLog.Window.Interval

/-! What the windows of a family own. The first window owns the whole page, a window cut
out of another owns the bytes that were cut out, and a copy owns what its original owns.
No call changes what a window owns. A call moves one window and that inside its interval,
or is refused and moves none, also where a record or an array is read part by part. -/

namespace DriveLog

namespace WindowOperation

/-- What the operation makes of its bytes. -/
def valueOf : (op : WindowOperation) → Bytes → op.Result
  | demand _, _ => ()
  | skip _, _ => ()
  | value form, bs => form.decode bs
  | record layout, bs => layout.decode bs
  | window _, _ => ()
  | copy, _ => ()

/-- How far the operation moves its window. -/
def moves : WindowOperation → Nat
  | demand _ => 0
  | op => op.needs

/-- The windows that the operation adds to the family. -/
def made (op : WindowOperation) (w : Window) : List Window :=
  match op with
  | window n => [{ start := w.position, offset := 0, unread := w.unread.take n }]
  | copy => [w]
  | _ => []

/-- The intervals of the windows that the operation adds, made at this position by a
window with this interval. -/
def grants (op : WindowOperation) (own : Interval) (position : Nat) : List Interval :=
  match op with
  | window n => [⟨position, position + n⟩]
  | copy => [own]
  | _ => []

end WindowOperation

namespace WindowFamily

/-- What is entered for the windows that a call makes. -/
def entered (family : WindowFamily) (owned : List Interval) (call : Call) : List Interval :=
  match family.members[call.index]?, owned[call.index]?, family.step? call.index call.op with
  | some w, some own, some (.ok _, _) => call.op.grants own w.position
  | _, _, _ => []

/-- The intervals owned after the calls. What has been entered once is never changed. -/
def ownedAfter (family : WindowFamily) (owned : List Interval) : List Call → List Interval
  | [] => owned
  | call :: calls =>
    (family.perform call).ownedAfter (owned ++ family.entered owned call) calls

/-- The intervals owned after calls that start with a window over the whole page. -/
def intervals (page : Bytes) (calls : List Call) : List Interval :=
  (ofBytes page).ownedAfter [⟨0, page.length⟩] calls

/-- What a call to the family does. One that fits gives the value of the bytes behind the
member's position, moves that member and adds the windows it makes; one that does not fit
names what was missing and changes nothing. -/
def Answers (page : Bytes) (family : WindowFamily) (index : Nat) (op : WindowOperation) :
    Prop :=
  match family.members[index]? with
  | none => family.step? index op = none
  | some w =>
    if op.needs ≤ w.remaining then
      ∃ moved, moved.position = w.position + op.moves ∧
        family.step? index op =
          some (.ok (op.valueOf (page.slice w.position op.needs)),
            ⟨family.members.set index moved ++ op.made w⟩)
    else
      family.step? index op = some (.error ⟨w.position, op.needs, w.remaining⟩, family)

end WindowFamily

/-! ## Single operations -/

namespace WindowOperation

variable {op : WindowOperation} {w : Window}

theorem valueOf_take (op : WindowOperation) (bs : Bytes) :
    op.valueOf (bs.take op.needs) = op.valueOf bs := by
  cases op with
  | value form => exact Form.decode_take (Nat.le_refl _) bs
  | record layout => exact Layout.decode_take (Nat.le_refl _) bs
  | _ => rfl

theorem run_of_le (h : op.needs ≤ w.remaining) :
    op.run w = (.ok (op.valueOf w.unread, op.made w), w.advance op.moves) := by
  cases op with
  | demand n =>
    have hn : n ≤ w.remaining := h
    rw [run, InPlace.run_bind, InPlace.single_of_ok (Reader.demand_of_le hn)]
    simp [InPlace.run_pure, moves, made, valueOf]
  | skip n =>
    have hn : n ≤ w.remaining := h
    rw [run, InPlace.run_bind, InPlace.single_of_ok (Reader.skip_of_le hn)]
    rfl
  | value form =>
    rw [run, InPlace.run_bind, form.takes_read w h]
    rfl
  | record layout =>
    rw [run, InPlace.run_bind, Layout.readInPlace_of_le h]
    rfl
  | window n =>
    have hn : n ≤ w.remaining := h
    rw [run, InPlace.run_bind, InPlace.single_of_ok (Reader.window_of_le hn)]
    rfl
  | copy =>
    rw [run, InPlace.run_bind, InPlace.run_get]
    simp [InPlace.run_pure, moves, needs, made, valueOf]

/-- A refused operation has not moved its window. -/
theorem run_of_lt (h : w.remaining < op.needs) :
    op.run w = (.error (w.shortfall op.needs), w) := by
  cases op with
  | demand n =>
    have hn : w.remaining < n := h
    rw [run, InPlace.run_bind, InPlace.single_of_error (Reader.demand_of_lt hn)]
    rfl
  | skip n =>
    have hn : w.remaining < n := h
    rw [run, InPlace.run_bind, InPlace.single_of_error (Reader.skip_of_lt hn)]
    rfl
  | value form =>
    rw [run, InPlace.run_bind, Form.read_of_lt h]
    rfl
  | record layout =>
    rw [run, InPlace.run_bind, Layout.readInPlace_of_lt h]
    rfl
  | window n =>
    have hn : w.remaining < n := h
    rw [run, InPlace.run_bind, InPlace.single_of_error (Reader.window_of_lt hn)]
    rfl
  | copy => exact absurd h (Nat.not_lt_zero _)

theorem moves_le_needs (op : WindowOperation) : op.moves ≤ op.needs := by
  cases op with
  | demand n => exact Nat.zero_le _
  | _ => exact Nat.le_refl _

end WindowOperation

namespace WindowFamily

variable {page : Bytes} {family : WindowFamily} {owned : List Interval} {w : Window}
  {index : Nat} {op : WindowOperation}

theorem step?_of_none (h : family.members[index]? = none) : family.step? index op = none := by
  simp [step?, h]

theorem step?_of_le (h : family.members[index]? = some w) (hn : op.needs ≤ w.remaining) :
    family.step? index op =
      some (.ok (op.valueOf w.unread),
        ⟨family.members.set index (w.advance op.moves) ++ op.made w⟩) := by
  simp [step?, h, WindowOperation.run_of_le hn]

/-- A refused call leaves the whole family as it was. -/
theorem step?_of_lt (h : family.members[index]? = some w) (hn : w.remaining < op.needs) :
    family.step? index op = some (.error (w.shortfall op.needs), family) := by
  obtain ⟨hlt, hget⟩ := List.getElem?_eq_some_iff.mp h
  have hset : family.members.set index w = family.members := by
    rw [← hget, List.set_getElem_self hlt]
  simp [step?, h, WindowOperation.run_of_lt hn, hset]

/-! ## Steps and runs -/

/-- Every member stands in the interval entered for it. -/
structure Stands (page : Bytes) (family : WindowFamily) (owned : List Interval) : Prop where
  length_eq : family.members.length = owned.length
  owns : ∀ (index : Nat) (w : Window) (own : Interval), family.members[index]? = some w →
    owned[index]? = some own → w.Owns page own

theorem stands_ofBytes (page : Bytes) : Stands page (ofBytes page) [⟨0, page.length⟩] := by
  refine ⟨rfl, ?_⟩
  intro index w own hw hown
  cases index with
  | zero =>
    cases hw
    cases hown
    exact Window.Owns.ofBytes page
  | succ index => cases hw

theorem Stands.exists_own (hs : Stands page family owned)
    (h : family.members[index]? = some w) :
    ∃ own, owned[index]? = some own ∧ w.Owns page own := by
  obtain ⟨hlt, _⟩ := List.getElem?_eq_some_iff.mp h
  have hlt' : index < owned.length := hs.length_eq ▸ hlt
  have hown : owned[index]? = some owned[index] := List.getElem?_eq_getElem hlt'
  exact ⟨_, hown, hs.owns index w _ h hown⟩

/-- A member that moves inside its interval still stands in it. -/
theorem Stands.set (hs : Stands page family owned) {own : Interval} {moved : Window}
    (hown : owned[index]? = some own) (hm : moved.Owns page own) :
    Stands page ⟨family.members.set index moved⟩ owned := by
  refine ⟨by simp [hs.length_eq], ?_⟩
  intro other v own' hv hown'
  rw [List.getElem?_set] at hv
  split at hv
  · rename_i heq
    subst heq
    split at hv
    · cases hv
      rw [hown] at hown'
      cases hown'
      exact hm
    · cases hv
  · exact hs.owns other v own' hv hown'

/-- Members that are added stand in the intervals entered for them. -/
theorem Stands.append (hs : Stands page family owned) {made : List Window}
    {granted : List Interval} (hm : Stands page ⟨made⟩ granted) :
    Stands page ⟨family.members ++ made⟩ (owned ++ granted) := by
  refine ⟨by simp [hs.length_eq, hm.length_eq], ?_⟩
  intro index v own hv hown
  rw [List.getElem?_append] at hv hown
  split at hv
  · rename_i hlt
    rw [if_pos (hs.length_eq ▸ hlt)] at hown
    exact hs.owns index v own hv hown
  · rename_i hge
    rw [if_neg (hs.length_eq ▸ hge), ← hs.length_eq] at hown
    exact hm.owns _ v own hv hown

theorem stands_made {own : Interval} (h : w.Owns page own) (hn : op.needs ≤ w.remaining) :
    Stands page ⟨op.made w⟩ (op.grants own w.position) := by
  have hnil : Stands page ⟨[]⟩ [] := ⟨rfl, fun _ _ _ hv => by cases hv⟩
  have hone : ∀ {v : Window} {own' : Interval}, v.Owns page own' →
      Stands page ⟨[v]⟩ [own'] := by
    intro v own' hv
    refine ⟨rfl, ?_⟩
    intro index u own'' hu hown''
    cases index with
    | zero =>
      cases hu
      cases hown''
      exact hv
    | succ index => cases hu
  cases op with
  | window n => exact hone (h.cut hn)
  | copy => exact hone h
  | _ => exact hnil

theorem stands_perform (hs : Stands page family owned) (call : Call) :
    Stands page (family.perform call) (owned ++ family.entered owned call) := by
  cases hw : family.members[call.index]? with
  | none =>
    rw [perform, step?_of_none hw, entered, hw]
    simpa using hs
  | some w =>
    obtain ⟨own, hown, howns⟩ := hs.exists_own hw
    by_cases hn : call.op.needs ≤ w.remaining
    · have hmoves := call.op.moves_le_needs
      have hmoved : (w.advance call.op.moves).Owns page own := howns.advance (by omega)
      rw [perform, entered, hw, hown, step?_of_le hw hn]
      exact (hs.set hown hmoved).append (stands_made howns hn)
    · rw [perform, entered, hw, hown, step?_of_lt hw (by omega)]
      simpa using hs

theorem stands_run (hs : Stands page family owned) (calls : List Call) :
    Stands page (family.run calls) (family.ownedAfter owned calls) := by
  induction calls generalizing family owned with
  | nil => exact hs
  | cons call calls ih => exact ih (stands_perform hs call)

theorem ownedAfter_append (calls more : List Call) :
    family.ownedAfter owned (calls ++ more) =
      (family.run calls).ownedAfter (family.ownedAfter owned calls) more := by
  induction calls generalizing family owned with
  | nil => rfl
  | cons call calls ih => exact ih

theorem prefix_ownedAfter (calls : List Call) : owned <+: family.ownedAfter owned calls := by
  induction calls generalizing family owned with
  | nil => exact List.prefix_rfl
  | cons call calls ih => exact (List.prefix_append owned _).trans ih

theorem answers (hs : Stands page family owned) (index : Nat) (op : WindowOperation) :
    family.Answers page index op := by
  unfold Answers
  cases hw : family.members[index]? with
  | none => exact step?_of_none hw
  | some w =>
    obtain ⟨own, _, howns⟩ := hs.exists_own hw
    by_cases hn : op.needs ≤ w.remaining
    · simp only [if_pos hn]
      refine ⟨w.advance op.moves, Window.position_advance w _, ?_⟩
      rw [step?_of_le hw hn, ← howns.take_unread hn, op.valueOf_take]
    · simp only [if_neg hn]
      exact step?_of_lt hw (by omega)

/-- After any calls, each to any window made so far, every window stands in the interval
that was entered when it was made, later calls add intervals and change none, and every
further call is answered in full or not at all. -/
theorem run_owns_answers (page : Bytes) (calls : List Call) :
    Stands page ((ofBytes page).run calls) (intervals page calls) ∧
      (∀ more, intervals page calls <+: intervals page (calls ++ more)) ∧
      ∀ index op, ((ofBytes page).run calls).Answers page index op := by
  have hs := stands_run (stands_ofBytes page) calls
  refine ⟨hs, ?_, answers hs⟩
  intro more
  rw [intervals, intervals, ownedAfter_append]
  exact prefix_ownedAfter more

example :
    intervals [1, 2, 3, 4, 5, 6, 7, 8]
      [⟨0, .skip 2⟩, ⟨0, .window 4⟩, ⟨1, .value (.number 2)⟩, ⟨1, .copy⟩, ⟨2, .window 2⟩,
        ⟨3, .skip 3⟩] = [⟨0, 8⟩, ⟨2, 6⟩, ⟨2, 6⟩, ⟨4, 6⟩] := by decide

end WindowFamily

end DriveLog
