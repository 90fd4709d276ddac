/-
# Base-128 integers in byte strings

A natural number in groups of seven bits, the lowest first; every byte but the last has its high
bit set.  `varint k n` writes at most `k` bytes and `getVarint k` reads at most `k`, as a codec for
integers of a fixed width does.
-/
import Mathlib.Data.List.Basic
import Molehill.Lib.Bytes

namespace Lib

/-- The encoding of `n` in at most `k` bytes. -/
def varint : Nat → Nat → Bytes
  | 0, _ => []
  | k + 1, n =>
    if n < 128 then [BitVec.ofNat 8 n]
    else BitVec.ofNat 8 (n % 128 + 128) :: varint k (n / 128)

/-- Read an integer of at most `k` bytes off the front of a byte string. -/
def getVarint : Nat → Bytes → Option (Nat × Bytes)
  | 0, _ => none
  | _ + 1, [] => none
  | k + 1, b :: bs =>
    if b.toNat < 128 then some (b.toNat, bs)
    else (getVarint k bs).map fun r => (b.toNat - 128 + 128 * r.1, r.2)

/-- A number below `128 ^ j` takes at most `j` bytes. -/
theorem varint_length_le {j n : Nat} (hj : 0 < j) (hn : n < 128 ^ j) (k : Nat) :
    (varint k n).length ≤ j := by
  induction k generalizing j n with
  | zero => exact Nat.zero_le j
  | succ k ih =>
    rw [varint]
    split
    · exact hj
    · rename_i hlarge
      cases j with
      | zero => omega
      | succ j =>
        have hj' : 0 < j := by
          rcases Nat.eq_zero_or_pos j with rfl | hpos
          · rw [Nat.zero_add, Nat.pow_one] at hn
            exact absurd hn hlarge
          · exact hpos
        have hdiv : n / 128 < 128 ^ j := by
          rw [Nat.pow_succ] at hn
          exact Nat.div_lt_of_lt_mul (by omega)
        have htail := ih hj' hdiv
        rw [List.length_cons]
        omega

/-- **The round trip.**  What is written is read back, and nothing behind it is touched. -/
theorem getVarint_varint_append {k n : Nat} (hn : n < 128 ^ k) (hk : 0 < k) (rest : Bytes) :
    getVarint k (varint k n ++ rest) = some (n, rest) := by
  induction k generalizing n with
  | zero => omega
  | succ k ih =>
    rw [varint]
    split
    · rename_i hsmall
      have hb : (BitVec.ofNat 8 n).toNat = n := by
        rw [BitVec.toNat_ofNat]
        omega
      rw [List.singleton_append, getVarint, hb, if_pos hsmall]
    · rename_i hlarge
      have hb : (BitVec.ofNat 8 (n % 128 + 128)).toNat = n % 128 + 128 := by
        rw [BitVec.toNat_ofNat]
        omega
      have hk' : 0 < k := by
        rcases Nat.eq_zero_or_pos k with rfl | hpos
        · rw [Nat.zero_add, Nat.pow_one] at hn
          exact absurd hn hlarge
        · exact hpos
      have hdiv : n / 128 < 128 ^ k := by
        rw [Nat.pow_succ] at hn
        exact Nat.div_lt_of_lt_mul (by omega)
      rw [List.cons_append, getVarint, hb, if_neg (by omega), ih hdiv hk', Option.map_some]
      have hsplit : n % 128 + 128 - 128 + 128 * (n / 128) = n := by omega
      rw [hsplit]

end Lib
