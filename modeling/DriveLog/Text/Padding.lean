import DriveLog.Text.Digits

/-! Fitting a text into a place: cut first to a greatest number of characters, then
filled with spaces to a least one. -/

namespace DriveLog.Text

inductive Alignment where
  | left
  | right
  | center
deriving DecidableEq, Repr

/-- How a text fills its place. -/
structure Padding where
  width : Nat := 0
  align : Alignment := .left
  /-- The greatest number of characters kept, if there is one. -/
  limit : Option Nat := none
deriving DecidableEq, Repr

namespace Padding

def cut (p : Padding) (s : String) : String :=
  match p.limit with
  | none => s
  | some n => String.ofList (s.toList.take n)

/-- The fill before a text of `n` characters; in the middle the odd space goes after it. -/
def before (p : Padding) (n : Nat) : Nat :=
  match p.align with
  | .left => 0
  | .right => p.width - n
  | .center => (p.width - n) / 2

def apply (p : Padding) (s : String) : String :=
  let t := p.cut s
  let fill := p.width - t.length
  let lead := p.before t.length
  spaces lead ++ t ++ spaces (fill - lead)

/-- A place of no width leaves a text as it is. -/
theorem apply_default (s : String) : ({} : Padding).apply s = s := by
  simp [apply, cut, before, spaces]

end Padding

end DriveLog.Text
