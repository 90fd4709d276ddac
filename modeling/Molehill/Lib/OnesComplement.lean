/-
# Ones' complement sums

A sum of words whose carries are brought around to the low end.  A word of all ones, `m`, stands
for zero beside the zero word, and every other number has one word: its residue.

* `onesSum_eq`: the sum of words is the residue of the sum of the numbers, so the order of the words
  does not matter, nor when the carries are brought around (`residue_carry`);
* `residue_complement`: with the complement of its residue, a number sums to all ones;
* `residue_eq_top_iff`: which numbers sum to all ones by themselves.

Nothing here is about any particular program.
-/
import Mathlib.Algebra.GroupWithZero.Nat
import Mathlib.Algebra.Order.Group.Nat
import Mathlib.Data.Nat.Basic

namespace Lib

/-- The word of a number: zero of zero only, else from one to all ones. -/
def residue (m n : Nat) : Nat := if n = 0 then 0 else (n - 1) % m + 1

/-- Addition of words, with the carry brought around. -/
def addCarry (m a b : Nat) : Nat := if a + b ≤ m then a + b else a + b - m

/-- The sum of words, one after another. -/
def onesSum (m : Nat) (ws : List Nat) : Nat := ws.foldl (addCarry m) 0

variable {m n a b : Nat}

@[simp] theorem residue_zero (m : Nat) : residue m 0 = 0 := rfl

theorem residue_of_pos (h : 0 < n) : residue m n = (n - 1) % m + 1 := if_neg (Nat.ne_of_gt h)

theorem residue_le (hm : 0 < m) (n : Nat) : residue m n ≤ m := by
  rcases Nat.eq_zero_or_pos n with rfl | hn
  · exact Nat.zero_le m
  · rw [residue_of_pos hn]
    exact Nat.mod_lt (n - 1) hm

theorem residue_of_le (h : n ≤ m) : residue m n = n := by
  rcases Nat.eq_zero_or_pos n with rfl | hn
  · rfl
  · rw [residue_of_pos hn, Nat.mod_eq_of_lt (by omega)]
    omega

/-- All ones added any number of times leave the word of a number that is not zero. -/
theorem residue_add_mul (hn : 0 < n) (q : Nat) : residue m (n + m * q) = residue m n := by
  rw [residue_of_pos hn, residue_of_pos (Nat.add_pos_left hn _)]
  have hone : n + m * q - 1 = n - 1 + m * q := by
    omega
  rw [hone, Nat.add_mul_mod_self_left]

/-- A number, by its word and all ones. -/
theorem residue_add_div (hn : 0 < n) : residue m n + m * ((n - 1) / m) = n := by
  have hsplit := Nat.mod_add_div (n - 1) m
  rw [residue_of_pos hn]
  omega

/-- **The carry comes around**: what is above the word is added to the word. -/
theorem residue_carry (m n : Nat) : residue m (n % (m + 1) + n / (m + 1)) = residue m n := by
  rcases Nat.eq_zero_or_pos n with rfl | hn
  · simp
  · have hsplit := Nat.mod_add_div n (m + 1)
    rw [Nat.succ_mul] at hsplit
    have hpos : 0 < n % (m + 1) + n / (m + 1) := by
      refine Nat.pos_of_ne_zero fun h0 => ?_
      obtain ⟨hmod, hdiv⟩ := Nat.add_eq_zero_iff.mp h0
      rw [hmod, hdiv] at hsplit
      omega
    calc
      residue m (n % (m + 1) + n / (m + 1))
          = residue m (n % (m + 1) + n / (m + 1) + m * (n / (m + 1))) :=
            (residue_add_mul hpos _).symm
      _ = residue m n := by
            congr 1
            omega

/-- Adding a word to the word of a number. -/
theorem addCarry_residue (hm : 0 < m) (a : Nat) (hb : b ≤ m) :
    addCarry m (residue m a) b = residue m (a + b) := by
  rcases Nat.eq_zero_or_pos a with rfl | ha
  · rw [residue_zero, addCarry, Nat.zero_add, if_pos hb, residue_of_le hb]
  · have hsplit := residue_add_div (m := m) ha
    have hsum : a + b = residue m a + b + m * ((a - 1) / m) := by
      omega
    have hpos : 0 < residue m a := by
      rw [residue_of_pos ha]
      exact Nat.succ_pos _
    have hle := residue_le hm a
    rw [hsum, residue_add_mul (by omega), addCarry]
    split
    case isTrue h => exact (residue_of_le h).symm
    case isFalse h =>
      obtain ⟨r, hr, hrpos, hrle⟩ : ∃ r, residue m a + b = r + m * 1 ∧ 0 < r ∧ r ≤ m :=
        ⟨residue m a + b - m, by omega, by omega, by omega⟩
      rw [hr, residue_add_mul hrpos, residue_of_le hrle]
      omega

/-- **The sum of words** is the word of the sum. -/
theorem onesSum_eq (hm : 0 < m) {ws : List Nat} (h : ∀ w ∈ ws, w ≤ m) :
    onesSum m ws = residue m ws.sum := by
  have hall : ∀ a, ws.foldl (addCarry m) (residue m a) = residue m (a + ws.sum) := by
    induction ws with
    | nil => exact fun a => rfl
    | cons w rest ih =>
      intro a
      have hrest : ∀ w ∈ rest, w ≤ m := fun w' hw' => h w' (List.mem_cons_of_mem _ hw')
      rw [List.foldl_cons, addCarry_residue hm a (h w List.mem_cons_self), ih hrest,
        List.sum_cons, Nat.add_assoc]
  have hzero := hall 0
  rwa [residue_zero, Nat.zero_add] at hzero

/-- **Which numbers sum to all ones.** -/
theorem residue_eq_top_iff (hm : 0 < m) : residue m n = m ↔ 0 < n ∧ m ∣ n := by
  constructor
  · intro h
    have hn : 0 < n := by
      refine Nat.pos_of_ne_zero fun h0 => ?_
      rw [h0, residue_zero] at h
      omega
    have hsplit := residue_add_div (m := m) hn
    rw [h] at hsplit
    exact ⟨hn, (n - 1) / m + 1, by rw [Nat.mul_succ]; omega⟩
  · rintro ⟨hn, q, rfl⟩
    cases q with
    | zero => cases hn
    | succ q => rw [Nat.mul_succ, Nat.add_comm, residue_add_mul hm, residue_of_le (Nat.le_refl m)]

/-- **The complement** of its word makes a number sum to all ones. -/
theorem residue_complement (hm : 0 < m) (n : Nat) :
    residue m (n + (m - residue m n)) = m := by
  have hle := residue_le hm n
  rcases Nat.eq_zero_or_pos n with rfl | hn
  · rw [residue_zero, Nat.zero_add, Nat.sub_zero, residue_of_le (Nat.le_refl m)]
  · have hsplit := residue_add_div (m := m) hn
    refine (residue_eq_top_iff hm).mpr ⟨by omega, (n - 1) / m + 1, ?_⟩
    rw [Nat.mul_succ]
    omega

end Lib
