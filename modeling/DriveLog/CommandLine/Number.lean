import DriveLog.PageId
import DriveLog.Text.Quoted

/-! The numbers of the command line: decimal, or hexadecimal behind a marker, with an
optional plus sign and any number of leading zeros. A number that does not fit is
refused and never wraps. -/

namespace DriveLog.CommandLine

open Text

/-- Why a numeral was refused. The digits are looked at from left to right, so of two
faults the first one counts. -/
inductive NumeralFault where
  | empty
  | invalidDigit
  | tooLarge
deriving DecidableEq, Repr

def NumeralFault.message : NumeralFault → String
  | empty => "cannot parse integer from empty string"
  | invalidDigit => "invalid digit found in string"
  | tooLarge => "number too large to fit in target type"

/-- The value of a digit, if the radix has it. -/
def digit? (radix : Nat) (c : Char) : Option Nat :=
  let value? :=
    if '0' ≤ c ∧ c ≤ '9' then some (c.toNat - '0'.toNat)
    else if 'a' ≤ c ∧ c ≤ 'f' then some (c.toNat - 'a'.toNat + 10)
    else if 'A' ≤ c ∧ c ≤ 'F' then some (c.toNat - 'A'.toNat + 10)
    else none
  value?.filter (· < radix)

/-- Reads digits behind a number already read, as long as it stays below the bound. -/
def readDigits (radix bound : Nat) (read : Nat) : List Char → Except NumeralFault Nat
  | [] => .ok read
  | c :: cs =>
    match digit? radix c with
    | none => .error .invalidDigit
    | some d =>
      let n := read * radix + d
      if n < bound then readDigits radix bound n cs else .error .tooLarge

/-- Reads a numeral with an optional plus sign. -/
def readNumeral (radix bound : Nat) : List Char → Except NumeralFault Nat
  | [] => .error .empty
  | ['+'] => .error .invalidDigit
  | '+' :: cs => readDigits radix bound 0 cs
  | cs => readDigits radix bound 0 cs

inductive NumberFault where
  | numeral (text : String) (cause : NumeralFault)
  | pageOutOfRange (id : Nat)
deriving DecidableEq, Repr

def NumberFault.message : NumberFault → String
  | numeral text cause => "invalid number " ++ quoted text ++ ": " ++ cause.message
  | pageOutOfRange id => "log page id " ++ hexWord 1 id ++ " out of range"

/-- A 32 bit number in either notation. -/
def readNumber (s : String) : Except NumberFault Nat :=
  let result :=
    match s.toList with
    | '0' :: 'x' :: cs => readNumeral 16 0x100000000 cs
    | '0' :: 'X' :: cs => readNumeral 16 0x100000000 cs
    | cs => readNumeral 10 0x100000000 cs
  result.mapError (.numeral s)

def readNamespace (s : String) : Except NumberFault UInt32 := do
  return UInt32.ofNat (← readNumber s)

def readPage (s : String) : Except NumberFault PageId := do
  let n ← readNumber s
  if n < 0x100 then return UInt8.ofNat n else throw (.pageOutOfRange n)

/-- A decimal entry number of at most 255. It may bear a minus sign if it is zero. -/
def readEntryNumber? (s : String) : Option UInt8 :=
  match s.toList with
  | '-' :: c :: cs => ofNumeral? 1 (c :: cs)
  | '+' :: c :: cs => ofNumeral? 0x100 (c :: cs)
  | c :: cs => ofNumeral? 0x100 (c :: cs)
  | [] => none
where
  ofNumeral? (bound : Nat) (cs : List Char) : Option UInt8 :=
    (readDigits 10 bound 0 cs).toOption.map UInt8.ofNat

end DriveLog.CommandLine
