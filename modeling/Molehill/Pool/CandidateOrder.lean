/-
# The order in which tunnels are tried

`order_candidates` sorts the indices of the tunnels by their load, and equal loads from the cursor
on; `order_candidates_for` takes out what was tried, and what the stripe's group has.

The group's tunnels are a preference: while one is left outside the group, they are not answered at
all, and when none is, they are all that is answered (`orderCandidatesFor_eq`).  So one answer does
not have the group's tunnels at its end (`avoided_left_out`).  An open that takes the first
candidate over and over, each tried after the one before, does come to them last (`firstPicks_eq`).
-/
import Molehill.Pool.Placement

namespace Molehill.Pool

/-! ## 1. Sorted by load, from the cursor on -/

/-- How far an index is from the cursor, going around. -/
def rotation (n start i : Nat) : Nat := (i + n - start % n) % n

/-- The cursor comes to the index after so many steps. -/
theorem rotation_spec {n i : Nat} (start : Nat) (hi : i < n) :
    rotation n start i < n ∧ (start + rotation n start i) % n = i := by
  have hn : 0 < n := Nat.zero_lt_of_lt hi
  have hstart : start % n < n := Nat.mod_lt start hn
  refine ⟨Nat.mod_lt _ hn, ?_⟩
  rw [rotation, Nat.add_mod_mod, ← Nat.mod_add_mod]
  have hback : start % n + (i + n - start % n) = i + n := by
    omega
  rw [hback, Nat.add_mod_right, Nat.mod_eq_of_lt hi]

/-- The load that placement compares. -/
def totalAt (loads : List TunnelCounters) (i : Nat) : Nat := (loads.getD i ⟨0, 0⟩).total

/-- Less loaded, or as loaded and sooner from the cursor. -/
def Earlier (loads : List TunnelCounters) (start i j : Nat) : Prop :=
  totalAt loads i < totalAt loads j ∨ totalAt loads i = totalAt loads j ∧
    rotation loads.length start i < rotation loads.length start j

variable {loads : List TunnelCounters} {start : Nat}

theorem perm_orderCandidates (loads : List TunnelCounters) (start : Nat) :
    (orderCandidates loads start).Perm (List.range loads.length) :=
  List.perm_insertionSort _ _

theorem nodup_orderCandidates (loads : List TunnelCounters) (start : Nat) :
    (orderCandidates loads start).Nodup :=
  (perm_orderCandidates loads start).nodup_iff.mpr List.nodup_range

/-- **The order**: by the load, and equal loads from the cursor on. -/
theorem pairwise_orderCandidates (loads : List TunnelCounters) (start : Nat) :
    (orderCandidates loads start).Pairwise (Earlier loads start) := by
  let r (i j : Nat) : Prop :=
    totalAt loads i < totalAt loads j ∨ (totalAt loads i = totalAt loads j ∧
      rotation loads.length start i ≤ rotation loads.length start j)
  have : Std.Total r := ⟨fun i j => by dsimp only [r]; omega⟩
  have : IsTrans Nat r := ⟨fun i j k hij hjk => by dsimp only [r] at *; omega⟩
  have hsorted : (orderCandidates loads start).Pairwise r := List.pairwise_insertionSort r _
  refine (hsorted.and (nodup_orderCandidates loads start)).imp_of_mem ?_
  rintro i j hi hj ⟨hle, hne⟩
  -- two indices are not equally far from the cursor
  have hrot : rotation loads.length start i ≠ rotation loads.length start j := by
    intro heq
    have hi := (rotation_spec start (mem_orderCandidates.mp hi)).2
    have hj := (rotation_spec start (mem_orderCandidates.mp hj)).2
    rw [heq, hj] at hi
    exact hne hi.symm
  rcases hle with hlt | ⟨heq, hle⟩
  · exact Or.inl hlt
  · exact Or.inr ⟨heq, Nat.lt_of_le_of_ne hle hrot⟩

/-! ## 2. Without what was tried, and what is avoided -/

variable {order tried avoid : List Nat}

/-- What was not tried and is not avoided. -/
def fresh (order tried avoid : List Nat) : List Nat :=
  order.filter fun i => i ∉ tried ∧ i ∉ avoid

/-- What was not tried and is avoided. -/
def spare (order tried avoid : List Nat) : List Nat :=
  order.filter fun i => i ∉ tried ∧ i ∈ avoid

theorem mem_fresh {i : Nat} : i ∈ fresh order tried avoid ↔ i ∈ order ∧ i ∉ tried ∧ i ∉ avoid := by
  rw [fresh, List.mem_filter, decide_eq_true_iff]

/-- With nothing fresh left, what was not tried is avoided. -/
theorem avoided_of_fresh_nil (hnone : fresh order tried avoid = []) {i : Nat} (hi : i ∈ order)
    (htried : i ∉ tried) : i ∈ avoid := by
  by_contra hout
  have hmem : i ∈ fresh order tried avoid := mem_fresh.mpr ⟨hi, htried, hout⟩
  rw [hnone] at hmem
  exact List.not_mem_nil hmem

/-- **The answer** is what is fresh, or what is spare when nothing is. -/
theorem orderCandidatesFor_eq (order tried avoid : List Nat) :
    orderCandidatesFor order tried avoid =
      if fresh order tried avoid = [] then spare order tried avoid
      else fresh order tried avoid := by
  have hfresh : (order.filter fun i => !tried.contains i && !avoid.contains i)
      = fresh order tried avoid := by
    refine List.filter_congr fun i _ => ?_
    simp [Bool.decide_and]
  unfold orderCandidatesFor
  dsimp only
  rw [hfresh]
  by_cases hnone : fresh order tried avoid = []
  · rw [if_pos hnone]
    -- everything untried is avoided
    have hspare : (order.filter fun i => !tried.contains i) = spare order tried avoid := by
      refine List.filter_congr fun i hi => ?_
      by_cases htried : i ∈ tried
      · simp [htried]
      · simp [htried, avoided_of_fresh_nil hnone hi htried]
    cases avoid with
    | nil =>
      have hnil : spare order tried [] = [] := List.filter_eq_nil_iff.mpr fun i _ => by simp
      rw [hnone, hnil]
      rfl
    | cons j rest =>
      rw [hnone]
      exact hspare
  · rw [if_neg hnone, if_neg (by simp [hnone])]

/-- Each candidate as often as the order has it. -/
theorem count_orderCandidatesFor (order tried avoid : List Nat) (i : Nat) :
    (orderCandidatesFor order tried avoid).count i =
      if i ∈ tried ∨ i ∈ avoid ∧ (∃ j ∈ order, j ∉ tried ∧ j ∉ avoid) then 0
      else order.count i := by
  have hcount : ∀ p : Nat → Bool, (order.filter p).count i = if p i then order.count i else 0 := by
    intro p
    split
    case isTrue hp => exact List.count_filter hp
    case isFalse hp =>
      exact List.count_eq_zero.mpr fun hi => hp (List.mem_filter.mp hi).2
  have hany : (∃ j ∈ order, j ∉ tried ∧ j ∉ avoid) ↔ fresh order tried avoid ≠ [] := by
    constructor
    · rintro ⟨j, hj⟩
      exact List.ne_nil_of_mem (mem_fresh.mpr hj)
    · intro hne
      obtain ⟨j, hj⟩ := List.exists_mem_of_ne_nil _ hne
      exact ⟨j, mem_fresh.mp hj⟩
  rw [orderCandidatesFor_eq]
  by_cases hnone : fresh order tried avoid = []
  · rw [if_pos hnone, spare, hcount]
    by_cases hi : i ∈ order
    · by_cases htried : i ∈ tried
      · simp [htried]
      · simp [htried, avoided_of_fresh_nil hnone hi htried, hany, hnone]
    · simp [List.count_eq_zero.mpr hi]
  · rw [if_neg hnone, fresh, hcount]
    by_cases htried : i ∈ tried
    · simp [htried]
    · by_cases havoid : i ∈ avoid
      · simp [havoid, hany, hnone]
      · simp [htried, havoid]

/-! ## 3. One candidate after the other -/

/-- The first candidate, tried, and then the first of what is left, at most so many times. -/
def firstPicks (order avoid : List Nat) : Nat → List Nat → List Nat
  | 0, _ => []
  | turns + 1, tried =>
    match orderCandidatesFor order tried avoid with
    | [] => []
    | i :: _ => i :: firstPicks order avoid turns (i :: tried)

/-- Trying the first of some candidates leaves the others. -/
theorem filter_tried (hnodup : order.Nodup) {p : Nat → Bool} {i : Nat} {rest : List Nat}
    (h : order.filter p = i :: rest) : (order.filter fun j => j ≠ i && p j) = rest := by
  have hrest : (i :: rest).Nodup := h ▸ hnodup.filter p
  rw [← List.filter_filter, h, List.filter_cons_of_neg (by simp)]
  refine List.filter_eq_self.mpr fun j hj => ?_
  rw [decide_eq_true_iff]
  rintro rfl
  exact (List.nodup_cons.mp hrest).1 hj

theorem filter_untouched {p : Nat → Bool} {i : Nat} (h : p i = false) :
    (order.filter fun j => j ≠ i && p j) = order.filter p := by
  refine List.filter_congr fun j _ => ?_
  by_cases hj : j = i
  · rw [hj, h, Bool.and_false]
  · simp [hj]

theorem fresh_cons (order tried avoid : List Nat) (i : Nat) :
    fresh order (i :: tried) avoid =
      order.filter fun j => j ≠ i && (j ∉ tried ∧ j ∉ avoid : Bool) := by
  refine List.filter_congr fun j _ => ?_
  simp [and_assoc]

theorem spare_cons (order tried avoid : List Nat) (i : Nat) :
    spare order (i :: tried) avoid =
      order.filter fun j => j ≠ i && (j ∉ tried ∧ j ∈ avoid : Bool) := by
  refine List.filter_congr fun j _ => ?_
  simp [and_assoc]

theorem length_fresh_spare (order tried avoid : List Nat) :
    (fresh order tried avoid).length + (spare order tried avoid).length ≤ order.length := by
  have hsplit := List.length_eq_countP_add_countP (l := order)
    fun i => decide (i ∉ tried ∧ i ∉ avoid)
  have hspare : order.countP (fun i => decide (i ∉ tried ∧ i ∈ avoid)) ≤
      order.countP fun i => ¬ decide (i ∉ tried ∧ i ∉ avoid) = true := by
    refine List.countP_mono_left fun i _ h => ?_
    simp only [decide_eq_true_eq] at h ⊢
    exact fun hout => hout.2 h.2
  rw [fresh, spare, ← List.countP_eq_length_filter, ← List.countP_eq_length_filter]
  omega

/-- **The picks** are what is fresh, and then what is spare. -/
theorem firstPicks_eq (hnodup : order.Nodup) (turns : Nat)
    (hturns : (fresh order tried avoid).length + (spare order tried avoid).length ≤ turns) :
    firstPicks order avoid turns tried = fresh order tried avoid ++ spare order tried avoid := by
  induction turns generalizing tried with
  | zero =>
    have hfresh : fresh order tried avoid = [] := List.length_eq_zero_iff.mp (by omega)
    have hspare : spare order tried avoid = [] := List.length_eq_zero_iff.mp (by omega)
    rw [hfresh, hspare]
    rfl
  | succ turns ih =>
    rw [firstPicks, orderCandidatesFor_eq]
    cases hfresh : fresh order tried avoid with
    | cons i rest =>
      -- one that is not avoided is picked
      have hi : i ∈ fresh order tried avoid := by rw [hfresh]; exact List.mem_cons_self
      have hrest : fresh order (i :: tried) avoid = rest := by
        rw [fresh_cons]
        exact filter_tried hnodup hfresh
      have hspare : spare order (i :: tried) avoid = spare order tried avoid := by
        rw [spare_cons]
        exact filter_untouched (decide_eq_false fun h => (mem_fresh.mp hi).2.2 h.2)
      rw [hfresh, List.length_cons] at hturns
      rw [if_neg (List.cons_ne_nil i rest)]
      dsimp only
      rw [ih (by rw [hrest, hspare]; omega), hrest, hspare, List.cons_append]
    | nil =>
      rw [if_pos rfl, List.nil_append]
      cases hspare : spare order tried avoid with
      | nil => rfl
      | cons i rest =>
        have hrest : spare order (i :: tried) avoid = rest := by
          rw [spare_cons]
          exact filter_tried hnodup hspare
        have hnone : fresh order (i :: tried) avoid = [] := by
          rw [fresh_cons]
          refine List.filter_eq_nil_iff.mpr fun j hj h => ?_
          have hmem : j ∈ fresh order tried avoid :=
            mem_fresh.mpr ⟨hj, of_decide_eq_true (Bool.and_eq_true_iff.mp h).2⟩
          rw [hfresh] at hmem
          exact List.not_mem_nil hmem
        rw [hspare, List.length_cons] at hturns
        dsimp only
        rw [ih (by rw [hnone, hrest, List.length_nil]; omega), hnone, hrest, List.nil_append]

/-- **The order of the candidates.**  `order_candidates` permutes the indices, by the load and then
from the cursor on.  `order_candidates_for` keeps the order of what it answers: every untried index
outside the avoid list once, or every untried one where there is none outside; so that one pick
after the other comes to every untried index once, and to those inside the avoid list last. -/
theorem candidates_ordered :
    (∀ loads start, (orderCandidates loads start).Perm (List.range loads.length) ∧
      (orderCandidates loads start).Pairwise (Earlier loads start) ∧
      ∀ i < loads.length, rotation loads.length start i < loads.length ∧
        (start + rotation loads.length start i) % loads.length = i) ∧
    ∀ order tried avoid, (orderCandidatesFor order tried avoid).Sublist order ∧
      (∀ i, (orderCandidatesFor order tried avoid).count i =
        if i ∈ tried ∨ i ∈ avoid ∧ (∃ j ∈ order, j ∉ tried ∧ j ∉ avoid) then 0
        else order.count i) ∧
      (order.Nodup → firstPicks order avoid order.length tried =
        (order.filter fun i => i ∉ tried ∧ i ∉ avoid) ++
          order.filter fun i => i ∉ tried ∧ i ∈ avoid) := by
  refine ⟨fun loads start => ?_, fun order tried avoid => ?_⟩
  · exact ⟨perm_orderCandidates loads start, pairwise_orderCandidates loads start,
      fun i hi => rotation_spec start hi⟩
  · refine ⟨?_, count_orderCandidatesFor order tried avoid, fun hnodup => ?_⟩
    · rw [orderCandidatesFor_eq]
      split
      · exact List.filter_sublist
      · exact List.filter_sublist
    · exact firstPicks_eq hnodup _ (length_fresh_spare order tried avoid)

/-- Three tunnels, the second idle, with the cursor on the third. -/
def threeLoads : List TunnelCounters := [⟨1, 0⟩, ⟨0, 0⟩, ⟨1, 0⟩]

/-- The group has the idle tunnel, so the picks come to it last. -/
theorem candidates_ordered_three :
    orderCandidates threeLoads 2 = [1, 2, 0] ∧ firstPicks [1, 2, 0] [1] 3 [] = [2, 0, 1] := by
  have horder : orderCandidates threeLoads 2 = [1, 2, 0] := by
    decide +kernel
  have hpicks := (candidates_ordered.2 (orderCandidates threeLoads 2) [] [1]).2.2
    (nodup_orderCandidates threeLoads 2)
  rw [horder] at hpicks
  exact ⟨horder, hpicks.trans (by decide)⟩

/-- **What is avoided is left out**, and not put at the end. -/
theorem avoided_left_out :
    ¬ ∀ loads start tried avoid,
      let order := orderCandidates loads start
      orderCandidatesFor order tried avoid =
        (order.filter fun i => i ∉ tried ∧ i ∉ avoid) ++
          order.filter fun i => i ∉ tried ∧ i ∈ avoid := by
  intro h
  have horder : orderCandidates threeLoads 2 = [1, 2, 0] := by
    decide +kernel
  have hall := h threeLoads 2 [] [1]
  rw [horder] at hall
  exact absurd hall (by decide)

end Molehill.Pool
