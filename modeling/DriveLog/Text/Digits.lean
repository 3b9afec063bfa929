/-! Numerals and filling. Numbers are written in base ten or sixteen with lower-case
digits and no leading zeros, then filled on the left where a place has a least width. -/

namespace DriveLog.Text

def spaces (n : Nat) : String := String.ofList (List.replicate n ' ')

/-- Filled on the left to at least `width` characters. -/
def padLeft (width : Nat) (fill : Char) (s : String) : String :=
  String.ofList (List.replicate (width - s.length) fill) ++ s

/-- Filled on the right with spaces to at least `width` characters. -/
def padRight (width : Nat) (s : String) : String := s ++ spaces (width - s.length)

def decimal (n : Nat) : String := String.ofList (Nat.toDigits 10 n)

def hex (n : Nat) : String := String.ofList (Nat.toDigits 16 n)

/-- Hexadecimal with at least `width` digits. -/
def hexDigits (width n : Nat) : String := padLeft width '0' (hex n)

/-- Hexadecimal behind its marker, with at least `width` digits. -/
def hexWord (width n : Nat) : String := "0x" ++ hexDigits width n

@[simp] theorem toList_spaces (n : Nat) : (spaces n).toList = List.replicate n ' ' := by
  simp [spaces]

@[simp] theorem length_spaces (n : Nat) : (spaces n).length = n := by
  rw [← String.length_toList, toList_spaces, List.length_replicate]

@[simp] theorem toList_padLeft (width : Nat) (fill : Char) (s : String) :
    (padLeft width fill s).toList =
      List.replicate (width - s.length) fill ++ s.toList := by
  simp [padLeft]

@[simp] theorem toList_padRight (width : Nat) (s : String) :
    (padRight width s).toList =
      s.toList ++ List.replicate (width - s.length) ' ' := by
  simp [padRight]

theorem length_padLeft (width : Nat) (fill : Char) (s : String) :
    (padLeft width fill s).length = max width s.length := by
  rw [← String.length_toList, toList_padLeft, List.length_append, List.length_replicate,
    String.length_toList]
  omega

theorem length_padRight (width : Nat) (s : String) :
    (padRight width s).length = max width s.length := by
  rw [padRight, String.length_append, length_spaces]
  omega

@[simp] theorem toList_decimal (n : Nat) : (decimal n).toList = Nat.toDigits 10 n := by
  simp [decimal]

@[simp] theorem toList_hex (n : Nat) : (hex n).toList = Nat.toDigits 16 n := by
  simp [hex]

/-- A number has one decimal numeral. -/
theorem decimal_injective {m n : Nat} (h : decimal m = decimal n) : m = n := by
  have hd : Nat.toDigits 10 m = Nat.toDigits 10 n := by
    simpa using congrArg String.toList h
  simpa using congrArg (fun ds => Nat.ofDigitChars 10 ds 0) hd

end DriveLog.Text
