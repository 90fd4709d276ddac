/-
# Numbered items through parallel lanes into a reorder buffer

A sender numbers its items `0, 1, 2, …` and puts each on one of several first-in first-out
lanes; every lane feeds one common queue, at its own pace; a receiver takes the items off the
queue, delivers the one whose turn it is and parks the others until their turn comes.  The
module is about the numbers only: what an item carries is the user's affair.

The conservation law (`Reorder.Conserved`) says that every number handed out is in exactly one
place.  From it:

* `Conserved.queue_bounds`: the queue never holds a number that was delivered already or never
  sent, so a receiver has no third case to consider;
* `Conserved.drained`: once the lanes and the queue are empty and no parked item is due,
  everything sent was delivered.

With a single lane nothing ever overtakes (`InOrder`): the head of the queue is always the item
that is due, and nothing is ever parked.
-/
import Mathlib.Algebra.BigOperators.Group.Finset.Piecewise
import Mathlib.Algebra.GroupWithZero.Nat
import Mathlib.Algebra.Order.Group.Multiset
import Mathlib.Tactic.Abel

namespace Lib

open Function

variable {ι : Type*} [DecidableEq ι]

/-- Where the numbers are: how many were handed out, the lanes, the common queue, the parked
ones, and the number that is due. -/
structure Reorder (ι : Type*) where
  sent : ℕ
  lanes : ι → List ℕ
  queue : List ℕ
  parked : Multiset ℕ
  out : ℕ

namespace Reorder

/-- Nothing sent yet. -/
def empty (ι : Type*) : Reorder ι := ⟨0, fun _ => [], [], 0, 0⟩

/-- The moves of a number: onto a lane, from a lane to the queue, from the queue to the
destination or to the parking place, and from there to the destination. -/
inductive Step : Reorder ι → Reorder ι → Prop
  | send (s : Reorder ι) (i : ι) :
      Step s { s with sent := s.sent + 1, lanes := update s.lanes i (s.lanes i ++ [s.sent]) }
  | push (s : Reorder ι) (i : ι) (n : ℕ) (rest : List ℕ) : s.lanes i = n :: rest →
      Step s { s with lanes := update s.lanes i rest, queue := s.queue ++ [n] }
  | deliver (s : Reorder ι) (rest : List ℕ) : s.queue = s.out :: rest →
      Step s { s with queue := rest, out := s.out + 1 }
  | park (s : Reorder ι) (n : ℕ) (rest : List ℕ) : s.queue = n :: rest → n ≠ s.out →
      Step s { s with queue := rest, parked := n ::ₘ s.parked }
  | unpark (s : Reorder ι) : s.out ∈ s.parked →
      Step s { s with parked := s.parked.erase s.out, out := s.out + 1 }

/-! ## 1. Conservation -/

section Conservation

variable [Fintype ι]

/-- The numbers on the lanes. -/
def carried (s : Reorder ι) : Multiset ℕ := ∑ i, (s.lanes i : Multiset ℕ)

/-- **The conservation law.**  The numbers handed out are, each exactly once, on a lane, in the
queue, parked or delivered. -/
def Conserved (s : Reorder ι) : Prop :=
  s.carried + s.queue + s.parked + Multiset.range s.out = Multiset.range s.sent

/-- Replacing one lane replaces that lane's share. -/
theorem carried_update (lanes : ι → List ℕ) (i : ι) (l : List ℕ) :
    (∑ j, (update lanes i l j : Multiset ℕ)) + (lanes i : Multiset ℕ)
      = (∑ j, (lanes j : Multiset ℕ)) + (l : Multiset ℕ) := by
  have hu : (fun j => (update lanes i l j : Multiset ℕ))
      = update (fun j => (lanes j : Multiset ℕ)) i (l : Multiset ℕ) := by
    funext j
    by_cases hj : j = i
    · subst hj
      simp
    · simp [hj]
  have h1 := Finset.sum_update_of_mem (Finset.mem_univ i)
    (fun j => (lanes j : Multiset ℕ)) (l : Multiset ℕ)
  have h2 := Finset.sum_erase_add Finset.univ (fun j => (lanes j : Multiset ℕ))
    (Finset.mem_univ i)
  rw [hu, h1, ← h2, Finset.erase_eq]
  abel

omit [DecidableEq ι] in
theorem conserved_empty : Conserved (empty ι) := by
  simp [Conserved, empty, carried]

theorem Conserved.step {s s' : Reorder ι} (h : Conserved s) (hs : Step s s') :
    Conserved s' := by
  unfold Conserved carried at *
  cases hs with
  | send i =>
    have hu := carried_update s.lanes i (s.lanes i ++ [s.sent])
    rw [Multiset.range_succ, ← h, ← Multiset.singleton_add]
    have hl : ((s.lanes i ++ [s.sent] : List ℕ) : Multiset ℕ)
        = (s.lanes i : Multiset ℕ) + {s.sent} := by
      rw [← Multiset.coe_add, Multiset.coe_singleton]
    rw [hl, ← add_assoc, add_right_comm] at hu
    rw [add_right_cancel hu]
    abel
  | push i n rest hl =>
    have hu := carried_update s.lanes i rest
    have hc : (s.lanes i : Multiset ℕ) = (rest : Multiset ℕ) + {n} := by
      rw [hl, ← Multiset.cons_coe, ← Multiset.singleton_add, add_comm]
    rw [hc, add_comm (rest : Multiset ℕ), ← add_assoc] at hu
    have hk := add_right_cancel hu
    rw [← h, ← hk, ← Multiset.coe_add, Multiset.coe_singleton]
    abel
  | deliver rest hq =>
    rw [← h, hq, Multiset.range_succ, ← Multiset.cons_coe, ← Multiset.singleton_add,
      ← Multiset.singleton_add]
    abel
  | park n rest hq hne =>
    dsimp only
    rw [← h, hq, ← Multiset.cons_coe, ← Multiset.singleton_add, ← Multiset.singleton_add]
    abel
  | unpark hm =>
    have he := Multiset.cons_erase hm
    rw [← Multiset.singleton_add] at he
    rw [← he] at h
    rw [← h, Multiset.range_succ, ← Multiset.singleton_add]
    abel

omit [DecidableEq ι] in
/-- What is not delivered yet is at or past the number that is due, and was sent. -/
theorem Conserved.bounds {s : Reorder ι} (h : Conserved s) {n : ℕ}
    (hn : n ∈ s.carried + s.queue + s.parked) : s.out ≤ n ∧ n < s.sent := by
  have hc := congrArg (Multiset.count n) h
  rw [Multiset.count_add] at hc
  have hq : 0 < (s.carried + s.queue + s.parked).count n := Multiset.count_pos.mpr hn
  have hle := Multiset.nodup_iff_count_le_one.mp (Multiset.nodup_range s.sent) n
  constructor
  · by_contra hlt
    have : 0 < (Multiset.range s.out).count n :=
      Multiset.count_pos.mpr (Multiset.mem_range.mpr (by omega))
    omega
  · have : 0 < (Multiset.range s.sent).count n := by omega
    exact Multiset.mem_range.mp (Multiset.count_pos.mp this)

omit [DecidableEq ι] in
theorem Conserved.queue_bounds {s : Reorder ι} (h : Conserved s) {n : ℕ} (hn : n ∈ s.queue) :
    s.out ≤ n ∧ n < s.sent := by
  apply h.bounds
  simp [hn]

omit [DecidableEq ι] in
theorem Conserved.lane_bounds {s : Reorder ι} (h : Conserved s) {i : ι} {n : ℕ}
    (hn : n ∈ s.lanes i) : s.out ≤ n ∧ n < s.sent := by
  have hc : n ∈ s.carried :=
    Multiset.mem_sum.mpr ⟨i, Finset.mem_univ i, Multiset.mem_coe.mpr hn⟩
  apply h.bounds
  simp [hc]

omit [DecidableEq ι] in
theorem Conserved.parked_bounds {s : Reorder ι} (h : Conserved s) {n : ℕ}
    (hn : n ∈ s.parked) : s.out ≤ n ∧ n < s.sent := by
  apply h.bounds
  simp [hn]

omit [DecidableEq ι] in
/-- Nothing is parked twice. -/
theorem Conserved.parked_nodup {s : Reorder ι} (h : Conserved s) : s.parked.Nodup := by
  have hle : s.parked ≤ Multiset.range s.sent := by
    rw [← h]
    exact (Multiset.le_add_left _ _).trans (Multiset.le_add_right _ _)
  exact Multiset.nodup_of_le hle (Multiset.nodup_range s.sent)

omit [DecidableEq ι] in
/-- What is queued is not parked as well. -/
theorem Conserved.notMem_parked {s : Reorder ι} (h : Conserved s) {n : ℕ}
    (hn : n ∈ s.queue) : n ∉ s.parked := by
  intro hp
  have hc := congrArg (Multiset.count n) h
  simp only [Multiset.count_add, Multiset.coe_count] at hc
  have h1 : 0 < s.queue.count n := List.count_pos_iff.mpr hn
  have h2 : 0 < s.parked.count n := Multiset.count_pos.mpr hp
  have hle := Multiset.nodup_iff_count_le_one.mp (Multiset.nodup_range s.sent) n
  omega

omit [DecidableEq ι] in
theorem Conserved.out_le_sent {s : Reorder ι} (h : Conserved s) : s.out ≤ s.sent := by
  have hle : Multiset.range s.out ≤ Multiset.range s.sent := by
    rw [← h]
    exact Multiset.le_add_left _ _
  simpa using Multiset.card_le_card hle

omit [DecidableEq ι] in
/-- **Everything sent was delivered**, once the lanes and the queue are empty and no parked
number is due. -/
theorem Conserved.drained {s : Reorder ι} (h : Conserved s) (hl : ∀ i, s.lanes i = [])
    (hq : s.queue = []) (hdue : s.out ∉ s.parked) : s.out = s.sent := by
  apply le_antisymm h.out_le_sent
  by_contra hlt
  have hmem : s.out ∈ Multiset.range s.sent := Multiset.mem_range.mpr (by omega)
  rw [← h, carried, hq] at hmem
  simp [hl, hdue] at hmem

end Conservation

/-! ## 2. A single lane -/

/-- With a single lane: what is queued and what is on the lane are the numbers from the one
that is due on, in order, and nothing is parked. -/
def InOrder (s : Reorder ι) (i : ι) : Prop :=
  s.out ≤ s.sent ∧ s.queue ++ s.lanes i = List.range' s.out (s.sent - s.out) ∧ s.parked = 0

omit [DecidableEq ι] in
theorem inOrder_empty (i : ι) : InOrder (empty ι) i := by
  simp [InOrder, empty]

omit [DecidableEq ι] in
/-- In order, the head of the queue is the number that is due. -/
theorem InOrder.head {s : Reorder ι} {i : ι} (h : InOrder s i) {n : ℕ} {rest : List ℕ}
    (hq : s.queue = n :: rest) :
    n = s.out ∧ s.out + 1 ≤ s.sent
      ∧ rest ++ s.lanes i = List.range' (s.out + 1) (s.sent - (s.out + 1)) := by
  obtain ⟨hle, hr, -⟩ := h
  rw [hq] at hr
  obtain ⟨d, hd⟩ : ∃ d, s.sent - s.out = d + 1 := by
    cases hd : s.sent - s.out with
    | zero => simp [hd] at hr
    | succ d => exact ⟨d, rfl⟩
  rw [hd, List.range'_succ] at hr
  have hd' : s.sent - (s.out + 1) = d := by omega
  rw [hd']
  simp only [List.cons_append, List.cons.injEq] at hr
  exact ⟨hr.1, by omega, hr.2⟩

theorem InOrder.step {s s' : Reorder ι} {i : ι} (hone : ∀ j, j = i) (h : InOrder s i)
    (hs : Step s s') : InOrder s' i := by
  cases hs with
  | send j =>
    obtain ⟨hle, hr, hp⟩ := h
    rw [hone j]
    refine ⟨Nat.le_succ_of_le hle, ?_, hp⟩
    have hd : s.sent + 1 - s.out = (s.sent - s.out) + 1 := by omega
    have he : s.out + (s.sent - s.out) = s.sent := by omega
    simp only [update_self]
    rw [← List.append_assoc, hr, hd, List.range'_1_concat, he]
  | push j n rest hl =>
    obtain ⟨hle, hr, hp⟩ := h
    rw [hone j] at hl ⊢
    refine ⟨hle, ?_, hp⟩
    simp only [update_self]
    rw [← hr, hl, List.append_assoc]
    rfl
  | deliver rest hq =>
    obtain ⟨-, hle, hr⟩ := h.head hq
    exact ⟨hle, hr, h.2.2⟩
  | park n rest hq hne => exact absurd (h.head hq).1 hne
  | unpark hm =>
    rw [h.2.2] at hm
    exact absurd hm (Multiset.notMem_zero _)

end Reorder

end Lib
