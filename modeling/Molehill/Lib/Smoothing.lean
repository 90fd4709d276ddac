/-
# Smoothed estimates

An estimator folds each sample into a weighted mean of what it had, rounded down.  Whatever the
weights, the estimate stays between two of the samples it has seen:

* `min_le_mean`, `mean_le_max`: a mean lies between the value and the sample;
* `Between`: a value between two of the samples, and the rules for one more sample.
-/
import Mathlib.Algebra.GroupWithZero.Nat
import Mathlib.Order.MinMax

universe u

namespace Lib

/-- The mean of a value that weighs `w` and a sample that weighs one, rounded down. -/
def mean (w value sample : Nat) : Nat := (w * value + sample) / (w + 1)

theorem min_le_mean (w value sample : Nat) : min value sample ≤ mean w value sample := by
  have hvalue : w * min value sample ≤ w * value := Nat.mul_le_mul_left w (Nat.min_le_left _ _)
  have hsample : min value sample ≤ sample := Nat.min_le_right _ _
  rw [mean, Nat.le_div_iff_mul_le (Nat.succ_pos w), Nat.mul_succ, Nat.mul_comm]
  exact Nat.add_le_add hvalue hsample

theorem mean_le_max (w value sample : Nat) : mean w value sample ≤ max value sample := by
  have hvalue : w * value ≤ w * max value sample := Nat.mul_le_mul_left w (Nat.le_max_left _ _)
  have hsample : sample ≤ max value sample := Nat.le_max_right _ _
  refine Nat.div_le_of_le_mul ?_
  rw [Nat.succ_mul]
  exact Nat.add_le_add hvalue hsample

/-- A value between the smallest and the largest of the samples. -/
def Between {α : Type u} [LinearOrder α] (samples : List α) (value : α) : Prop :=
  (∃ x ∈ samples, x ≤ value) ∧ ∃ y ∈ samples, value ≤ y

namespace Between

variable {α : Type u} [LinearOrder α] {samples : List α} {value value' x bound : α}

/-- The first estimate is the sample. -/
theorem last (samples : List α) (x : α) : Between (samples ++ [x]) x :=
  ⟨⟨x, by simp, le_rfl⟩, x, by simp, le_rfl⟩

/-- **One more sample**: an estimate between the last one and the sample. -/
theorem push (h : Between samples value) (hlo : min value x ≤ value')
    (hhi : value' ≤ max value x) : Between (samples ++ [x]) value' := by
  obtain ⟨⟨a, ha, hle⟩, b, hb, hge⟩ := h
  constructor
  · rcases min_le_iff.mp hlo with h | h
    · exact ⟨a, List.mem_append_left _ ha, hle.trans h⟩
    · exact ⟨x, by simp, h⟩
  · rcases le_max_iff.mp hhi with h | h
    · exact ⟨b, List.mem_append_left _ hb, h.trans hge⟩
    · exact ⟨x, by simp, h⟩

theorem lt_of_forall (h : Between samples value) (hall : ∀ y ∈ samples, y < bound) :
    value < bound := by
  obtain ⟨-, y, hy, hle⟩ := h
  exact lt_of_le_of_lt hle (hall y hy)

end Between

end Lib
