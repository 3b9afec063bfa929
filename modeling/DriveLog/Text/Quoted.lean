import DriveLog.Text.Digits

/-! Quoted text for messages. Quotes and backslashes are escaped, the common controls
have short forms, and every other character without a glyph of its own is given by its
code point. -/

namespace DriveLog.Text

/-- Ranges of the characters that show nothing: controls, blanks other than the space,
line and format marks, and private use. -/
def invisibleRanges : List (Nat × Nat) :=
  [(0x00, 0x1f), (0x7f, 0xa0), (0xad, 0xad), (0x600, 0x605), (0x61c, 0x61c),
    (0x6dd, 0x6dd), (0x70f, 0x70f), (0x890, 0x891), (0x8e2, 0x8e2), (0x1680, 0x1680),
    (0x180e, 0x180e), (0x2000, 0x200f), (0x2028, 0x202f), (0x205f, 0x206f),
    (0x3000, 0x3000), (0xe000, 0xf8ff), (0xfeff, 0xfeff), (0xfff9, 0xfffb),
    (0x110bd, 0x110bd), (0x110cd, 0x110cd), (0x13430, 0x1343f), (0x1bca0, 0x1bca3),
    (0x1d173, 0x1d17a), (0xe0001, 0x10ffff)]

def isInvisible (c : Char) : Bool :=
  invisibleRanges.any fun (low, high) => low ≤ c.toNat && c.toNat ≤ high

def quoteChar (c : Char) : String :=
  match c with
  | '\x00' => "\\0"
  | '\t' => "\\t"
  | '\r' => "\\r"
  | '\n' => "\\n"
  | '\x22' => "\\\x22"
  | '\\' => "\\\\"
  | c =>
    if isInvisible c then "\\u\x7b" ++ hex c.toNat ++ "\x7d"
    else String.singleton c

def quoted (s : String) : String :=
  "\x22" ++ String.join (s.toList.map quoteChar) ++ "\x22"

end DriveLog.Text
