import DriveLog.Window.Layout

/-! Families of windows. A family starts with one window over a page and grows by
windows cut out of its members and by copies of them. Each operation works in place on
one member, which stands afterwards wherever the operation has left it. -/

namespace DriveLog

inductive WindowOperation where
  /-- Check that so many bytes are left. -/
  | demand (n : Nat)
  | skip (n : Nat)
  | value (form : Form)
  | record (layout : Layout)
  /-- Cut out the next bytes as a window of their own. -/
  | window (n : Nat)
  | copy

namespace WindowOperation

@[reducible] def Result : WindowOperation → Type
  | value form => form.Value
  | record layout => layout.Value
  | _ => Unit

/-- How many bytes must be left. -/
def needs : WindowOperation → Nat
  | demand n => n
  | skip n => n
  | value form => form.size
  | record layout => layout.size
  | window n => n
  | copy => 0

/-- The result, and the windows that the operation adds to the family. -/
def run : (op : WindowOperation) → InPlace (op.Result × List Window)
  | demand n => do
    InPlace.single (Reader.demand n)
    return ((), [])
  | skip n => do
    InPlace.single (Reader.skip n)
    return ((), [])
  | value form => do
    let v ← form.read
    return (v, [])
  | record layout => do
    let v ← layout.readInPlace
    return (v, [])
  | window n => do
    let made ← InPlace.single (Reader.window n)
    return ((), [made])
  | copy => do
    let made ← get
    return ((), [made])

end WindowOperation

structure WindowFamily where
  members : List Window
deriving DecidableEq, Repr

namespace WindowFamily

def ofBytes (bs : Bytes) : WindowFamily := ⟨[Window.ofBytes bs]⟩

/-- Applies an operation to a member; `none` if there is no such member. -/
def step? (family : WindowFamily) (index : Nat) (op : WindowOperation) :
    Option (Except Shortfall op.Result × WindowFamily) :=
  family.members[index]?.map fun w =>
    match op.run w with
    | (.error shortfall, left) => (.error shortfall, ⟨family.members.set index left⟩)
    | (.ok (result, made), moved) => (.ok result, ⟨family.members.set index moved ++ made⟩)

/-- An operation on the member with this index. -/
structure Call where
  index : Nat
  op : WindowOperation

/-- The family after a call; a call to a member that is not there changes nothing. -/
def perform (family : WindowFamily) (call : Call) : WindowFamily :=
  match family.step? call.index call.op with
  | none => family
  | some (_, next) => next

def run (family : WindowFamily) (calls : List Call) : WindowFamily :=
  calls.foldl perform family

end WindowFamily

end DriveLog
