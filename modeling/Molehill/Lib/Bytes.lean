/-
# Fixed-width integers in byte strings

Little- and big-endian encodings of a natural number into a given number of bytes, and the
round trips: reading back what was written gives the number modulo the field's range.
`getLe` is the cursor read of a parser: the value of the next field, and the bytes behind it.
-/
import Mathlib.Algebra.GroupWithZero.Nat
import Mathlib.Data.List.Basic

namespace Lib

/-- One byte of a byte string. -/
abbrev Byte := BitVec 8

abbrev U16 := BitVec 16
abbrev U32 := BitVec 32
abbrev U64 := BitVec 64

/-- A payload, a frame or a datagram. -/
abbrev Bytes := List Byte

/-- The little-endian encoding of `n` in `k` bytes. -/
def leBytes : Nat → Nat → Bytes
  | 0, _ => []
  | k + 1, n => BitVec.ofNat 8 n :: leBytes k (n / 256)

/-- The number a little-endian byte string stands for. -/
def ofLe : Bytes → Nat
  | [] => 0
  | b :: bs => b.toNat + 256 * ofLe bs

/-- The big-endian encoding of `n` in `k` bytes. -/
def beBytes (k n : Nat) : Bytes := (leBytes k n).reverse

/-- The number a big-endian byte string stands for. -/
def ofBe (bs : Bytes) : Nat := ofLe bs.reverse

/-- Read a `k`-byte little-endian field off the front of a byte string. -/
def getLe (k : Nat) (bs : Bytes) : Nat × Bytes := (ofLe (bs.take k), bs.drop k)

@[simp] theorem leBytes_length : ∀ k n : Nat, (leBytes k n).length = k
  | 0, _ => rfl
  | k + 1, n => by simp [leBytes, leBytes_length k]

@[simp] theorem beBytes_length (k n : Nat) : (beBytes k n).length = k := by
  simp [beBytes]

/-- **The round trip.**  A field holds its value modulo its range. -/
theorem ofLe_leBytes : ∀ k n : Nat, ofLe (leBytes k n) = n % 256 ^ k
  | 0, n => by simp [leBytes, ofLe, Nat.mod_one]
  | k + 1, n => by
    have hb : (BitVec.ofNat 8 n).toNat = n % 256 := by simp
    rw [leBytes, ofLe, ofLe_leBytes k, hb, Nat.pow_succ, Nat.mul_comm (256 ^ k) 256, Nat.mod_mul]

theorem ofBe_beBytes (k n : Nat) : ofBe (beBytes k n) = n % 256 ^ k := by
  rw [ofBe, beBytes, List.reverse_reverse, ofLe_leBytes]

/-- A byte string stands for a number in its field's range. -/
theorem ofLe_lt (bs : Bytes) : ofLe bs < 256 ^ bs.length := by
  induction bs with
  | nil => exact Nat.one_pos
  | cons b bs ih =>
    have hb := b.isLt
    rw [List.length_cons, ofLe, Nat.pow_succ]
    omega

/-- A byte string of a field's width is the encoding of the number it stands for. -/
theorem leBytes_ofLe (bs : Bytes) : leBytes bs.length (ofLe bs) = bs := by
  induction bs with
  | nil => rfl
  | cons b bs ih =>
    have hb := b.isLt
    have hmod : BitVec.ofNat 8 (b.toNat + 256 * ofLe bs) = b := by
      apply BitVec.eq_of_toNat_eq
      rw [BitVec.toNat_ofNat]
      omega
    have hdiv : (b.toNat + 256 * ofLe bs) / 256 = ofLe bs := by omega
    rw [List.length_cons, leBytes, ofLe, hmod, hdiv, ih]

theorem beBytes_ofBe (bs : Bytes) : beBytes bs.length (ofBe bs) = bs := by
  have h := leBytes_ofLe bs.reverse
  rw [List.length_reverse] at h
  rw [beBytes, ofBe, h, List.reverse_reverse]

/-- A little-endian field is read back off the front of what was written. -/
theorem getLe_leBytes_append (k n : Nat) (rest : Bytes) :
    getLe k (leBytes k n ++ rest) = (n % 256 ^ k, rest) := by
  rw [getLe, List.take_left' (leBytes_length k n), List.drop_left' (leBytes_length k n),
    ofLe_leBytes]

end Lib
