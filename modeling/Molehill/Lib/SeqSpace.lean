/-
# Sequence numbers that wrap

A `w`-bit counter names the natural number `n` by its residue, `BitVec.ofNat w n`.  Two such
names are compared by the sign of their difference read as a two's-complement integer, which
agrees with the comparison of the numbers themselves as long as these are less than half the
sequence space apart.  This module has that fact (`seqDiff_ofNat_of_near`), its one-sided
consequences, and the unwrapping of a counter that moved by less than the whole space
(`toNat_sub_ofNat`).
-/
import Mathlib.Algebra.GroupWithZero.Nat
import Mathlib.Data.Nat.Basic

namespace Lib

/-- The difference of two `w`-bit counters, read as a signed number. -/
def seqDiff {w : Nat} (later earlier : BitVec w) : Int := (later - earlier).toInt

/-- Between two names, the signed difference is the balanced residue of the difference of the
numbers they name. -/
theorem seqDiff_ofNat (w a b : Nat) :
    seqDiff (BitVec.ofNat w a) (BitVec.ofNat w b) = ((a : Int) - (b : Int)).bmod (2 ^ w) := by
  unfold seqDiff
  rw [BitVec.toInt_sub]
  simp only [BitVec.toInt_ofNat', Int.bmod_sub_bmod, Int.sub_bmod_bmod]

/-- The names of two numbers agree exactly when the numbers agree modulo the space. -/
theorem ofNat_eq_ofNat_iff (w a b : Nat) :
    BitVec.ofNat w a = BitVec.ofNat w b ↔ a % 2 ^ w = b % 2 ^ w := by
  constructor
  · intro h
    have := congrArg BitVec.toNat h
    simpa using this
  · intro h
    apply BitVec.eq_of_toNat_eq
    simpa using h

/-- A counter that went from `a` to `a + d` by fewer steps than the space holds unwraps to
exactly `d`. -/
theorem toNat_sub_ofNat {w a d : Nat} (h : d < 2 ^ w) :
    (BitVec.ofNat w (a + d) - BitVec.ofNat w a).toNat = d := by
  rw [BitVec.ofNat_add, BitVec.add_comm, BitVec.add_sub_cancel]
  rw [BitVec.toNat_ofNat, Nat.mod_eq_of_lt h]

/-- Advancing a counter by a narrower word. -/
theorem ofNat_add_setWidth {w v : Nat} (n : Nat) (x : BitVec v) :
    BitVec.ofNat w n + x.setWidth w = BitVec.ofNat w (n + x.toNat) := by
  rw [BitVec.ofNat_add, BitVec.ofNat_toNat]

/-! ## 32-bit counters

The numeric instances the engines use.  They are stated at `w = 32` so that the arithmetic is
linear with literal coefficients. -/

/-- Names less than half the space apart compare like the numbers they name. -/
theorem seqDiff32_of_near {a b : Nat} (h1 : a < b + 2 ^ 31) (h2 : b ≤ a + 2 ^ 31) :
    seqDiff (BitVec.ofNat 32 a) (BitVec.ofNat 32 b) = (a : Int) - (b : Int) := by
  rw [seqDiff_ofNat, Int.bmod_def]
  simp only [Nat.reducePow]
  omega

/-- Names of numbers less than the whole space apart are equal only if the numbers are. -/
theorem ofNat32_inj {a b : Nat} (h1 : a < b + 2 ^ 32) (h2 : b < a + 2 ^ 32)
    (h : BitVec.ofNat 32 a = BitVec.ofNat 32 b) : a = b := by
  rw [ofNat_eq_ofNat_iff] at h
  omega

end Lib
