/-! Little-endian numbers. `ofLE` reads a byte string of any length as a number in
base 256, least significant byte first, and `toLE` writes the low bytes of a number.
Each undoes the other at a fixed width, so two byte strings of one length that read
as the same number are the same string. A word is put together bit by bit from up to
eight bytes, and it is the number of those bytes. -/

namespace DriveLog

abbrev Bytes := List UInt8

namespace Bytes

def ofLE : Bytes → Nat
  | [] => 0
  | b :: bs => b.toNat + 256 * ofLE bs

/-- The low `width` bytes of a number; what does not fit is dropped. -/
def toLE : Nat → Nat → Bytes
  | 0, _ => []
  | width + 1, n => UInt8.ofNat (n % 256) :: toLE width (n / 256)

@[simp] theorem ofLE_nil : ofLE [] = 0 := rfl

@[simp] theorem ofLE_cons (b : UInt8) (bs : Bytes) :
    ofLE (b :: bs) = b.toNat + 256 * ofLE bs := rfl

@[simp] theorem length_toLE (width n : Nat) : (toLE width n).length = width := by
  induction width generalizing n with
  | zero => rfl
  | succ width ih => simp [toLE, ih]

theorem ofLE_lt (bs : Bytes) : ofLE bs < Nat.pow 256 bs.length := by
  induction bs with
  | nil => simp
  | cons b bs ih =>
    have hb : b.toNat < 256 := b.toNat_lt
    simp only [ofLE_cons, List.length_cons, Nat.pow_eq, Nat.pow_succ] at ih ⊢
    omega

theorem toLE_ofLE (bs : Bytes) : toLE bs.length (ofLE bs) = bs := by
  induction bs with
  | nil => rfl
  | cons b bs ih =>
    have hb : b.toNat < 256 := b.toNat_lt
    have hlow : (b.toNat + 256 * ofLE bs) % 256 = b.toNat := by omega
    have hhigh : (b.toNat + 256 * ofLE bs) / 256 = ofLE bs := by omega
    simp [toLE, hlow, hhigh, ih]

theorem ofLE_toLE (width n : Nat) : ofLE (toLE width n) = n % Nat.pow 256 width := by
  induction width generalizing n with
  | zero => simp [toLE, Nat.mod_one]
  | succ width ih =>
    have hlow : (UInt8.ofNat (n % 256)).toNat = n % 256 := by simp
    simp only [toLE, ofLE_cons, hlow, ih, Nat.pow_eq, Nat.pow_succ]
    rw [Nat.mul_comm _ 256, Nat.mod_mul]

theorem ofLE_toLE_two {n : Nat} (h : n < 0x10000) : ofLE (toLE 2 n) = n := by
  rw [ofLE_toLE]
  exact Nat.mod_eq_of_lt h

/-- At one length a number has one spelling. -/
theorem eq_of_ofLE_eq {as bs : Bytes} (hlen : as.length = bs.length)
    (h : ofLE as = ofLE bs) : as = bs := by
  rw [← toLE_ofLE as, ← toLE_ofLE bs, hlen, h]

theorem ofLE_append (as bs : Bytes) :
    ofLE (as ++ bs) = ofLE as + Nat.pow 256 as.length * ofLE bs := by
  induction as with
  | nil => simp
  | cons a as ih =>
    simp only [List.cons_append, ofLE_cons, ih, List.length_cons, Nat.pow_eq, Nat.pow_succ,
      Nat.mul_add, Nat.add_assoc]
    rw [Nat.mul_comm _ 256, Nat.mul_assoc]

theorem ofLE_take_add_drop {bs : Bytes} {n : Nat} (h : n ≤ bs.length) :
    ofLE bs = ofLE (bs.take n) + Nat.pow 256 n * ofLE (bs.drop n) := by
  have hsplit := ofLE_append (bs.take n) (bs.drop n)
  rw [List.take_append_drop, List.length_take_of_le h] at hsplit
  exact hsplit

theorem ofLE_replicate_zero (n : Nat) : ofLE (List.replicate n 0) = 0 := by
  induction n with
  | zero => rfl
  | succ n ih => simp [List.replicate_succ, ih]

theorem ofLE_eq_zero_iff {bs : Bytes} : ofLE bs = 0 ↔ bs = List.replicate bs.length 0 := by
  constructor
  · intro h
    apply eq_of_ofLE_eq
    · rw [List.length_replicate]
    · rw [h, ofLE_replicate_zero]
  · intro h
    rw [h, ofLE_replicate_zero]

/-! ## Words -/

/-- Puts byte `i` into a word from bit `8 * i` on. -/
def putByte (word : UInt64) : UInt8 × Nat → UInt64
  | (b, i) => word ||| b.toUInt64 <<< UInt64.ofNat (8 * i)

/-- A byte behind the eighth has no place in a word. -/
def putLowByte (word : UInt64) (byte : UInt8 × Nat) : UInt64 :=
  if byte.2 < 8 then putByte word byte else word

/-- The word that a byte string of at most eight bytes makes. -/
def toWord (bs : Bytes) : UInt64 := bs.zipIdx.foldl putByte 0

/-- The word that the first eight bytes make. -/
def lowWord (bs : Bytes) : UInt64 := bs.zipIdx.foldl putLowByte 0

/-- A byte meets no bit that is taken, and its own bits are all in the word. -/
theorem toNat_putByte {word : UInt64} {i : Nat} (hi : i < 8) (h : word.toNat < Nat.pow 256 i)
    (b : UInt8) : (putByte word (b, i)).toNat = word.toNat + Nat.pow 256 i * b.toNat := by
  have hpow : Nat.pow 256 i = 2 ^ (8 * i) := (Nat.pow_mul 2 8 i).symm
  have hfit : Nat.pow 256 i * b.toNat < 2 ^ 64 := by
    calc Nat.pow 256 i * b.toNat < Nat.pow 256 i * 256 :=
          Nat.mul_lt_mul_of_pos_left b.toNat_lt (Nat.pow_pos (by decide))
      _ = Nat.pow 256 (i + 1) := rfl
      _ ≤ Nat.pow 256 8 := Nat.pow_le_pow_right (by decide) hi
  have hshift : (b.toUInt64 <<< UInt64.ofNat (8 * i)).toNat = Nat.pow 256 i * b.toNat := by
    have hcount : (UInt64.ofNat (8 * i)).toNat = 8 * i :=
      UInt64.toNat_ofNat_of_lt' (Nat.lt_trans (show 8 * i < 64 by omega) (by decide))
    rw [UInt64.toNat_shiftLeft, hcount, Nat.mod_eq_of_lt (show 8 * i < 64 by omega),
      UInt8.toNat_toUInt64, Nat.shiftLeft_eq, ← hpow, Nat.mul_comm, Nat.mod_eq_of_lt hfit]
  rw [putByte, UInt64.toNat_or, hshift, hpow, Nat.or_comm,
    ← Nat.two_pow_add_eq_or_of_lt (hpow ▸ h), Nat.add_comm]

/-- From byte `i` on, where the bits below are those of the bytes before. -/
theorem toNat_foldl_putByte {bs : Bytes} {word : UInt64} {i : Nat}
    (hfit : i + bs.length ≤ 8) (h : word.toNat < Nat.pow 256 i) :
    ((bs.zipIdx i).foldl putByte word).toNat = word.toNat + Nat.pow 256 i * ofLE bs := by
  induction bs generalizing word i with
  | nil => rfl
  | cons b bs ih =>
    rw [List.length_cons] at hfit
    have hput := toNat_putByte (show i < 8 by omega) h b
    have hnext : (putByte word (b, i)).toNat < Nat.pow 256 (i + 1) := by
      calc (putByte word (b, i)).toNat < Nat.pow 256 i + Nat.pow 256 i * b.toNat := by omega
        _ = Nat.pow 256 i * (b.toNat + 1) := by rw [Nat.mul_succ, Nat.add_comm]
        _ ≤ Nat.pow 256 i * 256 := Nat.mul_le_mul_left _ b.toNat_lt
        _ = Nat.pow 256 (i + 1) := rfl
    calc ((List.zipIdx (b :: bs) i).foldl putByte word).toNat
        = (putByte word (b, i)).toNat + Nat.pow 256 (i + 1) * ofLE bs := ih (by omega) hnext
      _ = word.toNat + (Nat.pow 256 i * b.toNat + Nat.pow 256 i * 256 * ofLE bs) := by
        rw [hput, Nat.add_assoc]
        rfl
      _ = word.toNat + Nat.pow 256 i * ofLE (b :: bs) := by
        rw [ofLE_cons, Nat.mul_add, Nat.mul_assoc]

theorem toNat_toWord {bs : Bytes} (h : bs.length ≤ 8) : (toWord bs).toNat = ofLE bs := by
  have hfit : 0 + bs.length ≤ 8 := by omega
  have hfold := toNat_foldl_putByte hfit (show (0 : UInt64).toNat < Nat.pow 256 0 by decide)
  rw [toWord, hfold]
  simp

theorem foldl_putLowByte (bs : Bytes) (word : UInt64) (i : Nat) :
    (bs.zipIdx i).foldl putLowByte word = ((bs.take (8 - i)).zipIdx i).foldl putByte word := by
  induction bs generalizing word i with
  | nil =>
    rw [List.take_nil]
    rfl
  | cons b bs ih =>
    rw [List.zipIdx_cons, List.foldl_cons, ih, putLowByte]
    by_cases hi : i < 8
    · have hleft : 8 - i = 8 - (i + 1) + 1 := by omega
      rw [if_pos hi, hleft, List.take_succ_cons, List.zipIdx_cons, List.foldl_cons]
    · have hnone : 8 - i = 0 := by omega
      have hnone' : 8 - (i + 1) = 0 := by omega
      rw [if_neg hi, hnone, hnone', List.take_zero, List.take_zero]
      rfl

theorem toNat_lowWord (bs : Bytes) : (lowWord bs).toNat = ofLE (bs.take 8) := by
  have hfold : lowWord bs = toWord (bs.take 8) := foldl_putLowByte bs 0 0
  rw [hfold, toNat_toWord (List.length_take_le 8 bs)]

end Bytes

end DriveLog
