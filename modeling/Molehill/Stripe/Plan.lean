/-
# The plan of a server's stripe groups

`StripePlan` (`stripe.rs`) says how many stripes the next visitor's group gets.  A group that stood
still for `STRIPE_BACKPRESSURE` and then moved reports it (`note_stall`), and the plan grows by one,
at most once per `STRIPE_GROWTH_DWELL`.  The groups report from tasks of their own, and a report is
a clock read and five accesses to two atomics, so that any number of them overlap.

The exchange of the growth stamp is what spaces the steps, whatever the clock does between the
accesses (`plan_paced`).  The step itself is a load and a store, so that a report which is held up
between the two for longer than the dwell takes back what others added (`growth_taken_back`).

The accesses are taken one after the other, each of the last value; the loads and stores are
relaxed, but the bounds do not rest on which earlier value a load finds.
-/
import Mathlib.Data.List.Basic
import Molehill.Lib.Transition

namespace Molehill.Stripe.Plan

open Lib

/-! ## 1. Points that stand apart -/

/-- So many points that stand `d` apart need room. -/
theorem spread_le {d x y : Nat} {l : List Nat} (hl : l.Pairwise fun a b => a + d ≤ b)
    (hx : ∀ a ∈ l, x ≤ a ∧ a ≤ y) (hne : l ≠ []) : x + (l.length - 1) * d ≤ y := by
  induction l generalizing x with
  | nil => exact absurd rfl hne
  | cons a rest ih =>
    obtain ⟨hxa, hay⟩ := hx a List.mem_cons_self
    rw [List.length_cons, Nat.add_sub_cancel]
    obtain ⟨hfirst, hrest⟩ := List.pairwise_cons.mp hl
    cases rest with
    | nil =>
      rw [List.length_nil, Nat.zero_mul]
      exact Nat.le_trans hxa hay
    | cons b more =>
      have hgo := ih hrest
        (fun c hc => ⟨hfirst c hc, (hx c (List.mem_cons_of_mem _ hc)).2⟩) (List.cons_ne_nil b more)
      rw [List.length_cons, Nat.add_sub_cancel] at hgo
      rw [List.length_cons, Nat.succ_mul]
      omega

/-- A window of length `w` holds at most one of them more than `w / d`. -/
theorem count_window {d w x : Nat} (hd : 0 < d) {l : List Nat}
    (hl : l.Pairwise fun a b => a + d ≤ b) :
    (l.filter fun a => decide (x ≤ a ∧ a ≤ x + w)).length ≤ w / d + 1 := by
  by_cases hne : (l.filter fun a => decide (x ≤ a ∧ a ≤ x + w)) = []
  · rw [hne]
    exact Nat.zero_le _
  · have hspread := spread_le (hl.filter _) (x := x) (y := x + w)
      (fun a ha => of_decide_eq_true (List.mem_filter.mp ha).2) hne
    have hmul : ((l.filter fun a => decide (x ≤ a ∧ a ≤ x + w)).length - 1) * d ≤ w :=
      Nat.le_of_add_le_add_left hspread
    have hdiv := (Nat.le_div_iff_mul_le hd).mpr hmul
    omega

/-! ## 2. The plan and the reports -/

/-- `MAX_STRIPES`. -/
def maxStripes : Nat := 64

/-- `STRIPE_BACKPRESSURE`, in milliseconds. -/
def stripeBackpressure : Nat := 250

/-- `STRIPE_GROWTH_DWELL`, in milliseconds. -/
def stripeGrowthDwell : Nat := 500

/-- `clamp(1, MAX_STRIPES)`. -/
def clamp (n : Nat) : Nat := max 1 (min n maxStripes)

/-- Where a call of `note_stall` is: after the threshold, with the clock it read, with the stamp it
loaded, after it exchanged the stamp, with the target it loaded, returned. -/
inductive Call
  | called
  | clocked (now : Nat)
  | loaded (now last : Nat)
  | won
  | holding (target : Nat)
  | returned (result : Option Nat)
  deriving DecidableEq

/-- The call has taken a step and not stored it yet. -/
def Call.owes : Call → Bool
  | won | holding _ => true
  | _ => false

/-- `StripePlan`, the calls of `note_stall` on it, and the stamps exchanged into `last_growth`. -/
structure StripePlan where
  target : Nat
  lastGrowth : Nat
  calls : List Call
  stamps : List Nat
  deriving DecidableEq

inductive Event
  | noteStall (stalled : Nat)
  | clock (i now : Nat)
  | load (i : Nat)
  | exchange (i : Nat)
  | read (i : Nat)
  | store (i : Nat)
  deriving DecidableEq

namespace StripePlan

/-- `StripePlan::new`. -/
def new (target : Nat) : StripePlan := ⟨clamp target, 0, [], []⟩

/-- `StripePlan::target`: the width of the next group. -/
def width (s : StripePlan) : Nat := clamp s.target

def setCall (s : StripePlan) (i : Nat) (c : Call) : StripePlan :=
  { s with calls := s.calls.set i c }

/-- One access of a call of `note_stall`. -/
def step (s : StripePlan) : Event → Option StripePlan
  | .noteStall stalled =>
    if stalled < stripeBackpressure then some { s with calls := s.calls ++ [.returned none] }
    else some { s with calls := s.calls ++ [.called] }
  | .clock i now =>
    match s.calls[i]? with
    | some .called => some (s.setCall i (.clocked now))
    | _ => none
  | .load i =>
    match s.calls[i]? with
    | some (.clocked now) =>
      if s.lastGrowth ≠ 0 ∧ now - s.lastGrowth < stripeGrowthDwell then
        some (s.setCall i (.returned none))
      else some (s.setCall i (.loaded now s.lastGrowth))
    | _ => none
  | .exchange i =>
    match s.calls[i]? with
    | some (.loaded now last) =>
      if s.lastGrowth = last then
        some { s.setCall i .won with lastGrowth := now, stamps := s.stamps ++ [now] }
      else some (s.setCall i (.returned none))
    | _ => none
  | .read i =>
    match s.calls[i]? with
    | some .won => some (s.setCall i (.holding s.target))
    | _ => none
  | .store i =>
    match s.calls[i]? with
    | some (.holding target) =>
      let next := min (target + 1) maxStripes
      some { s.setCall i (.returned (some next)) with target := next }
    | _ => none

end StripePlan

/-- The runs of a plan. -/
def plan (target : Nat) : Lts StripePlan Event where
  init s := s = .new target
  step s e s' := s.step e = some s'

/-- The clock is past the epoch when it is read. -/
def pastEpoch (_ : StripePlan) : Event → Prop
  | .clock _ now => 0 < now
  | _ => True

instance (s : StripePlan) : (e : Event) → Decidable (pastEpoch s e)
  | .clock _ now => inferInstanceAs (Decidable (0 < now))
  | .noteStall _ | .load _ | .exchange _ | .read _ | .store _ => inferInstanceAs (Decidable True)

/-! ## 3. What every access keeps -/

/-- What a call knows where it is: a clock past the epoch; a stamp that was old enough; a target
that leaves room for every step that is not stored yet. -/
def Call.Knows (room : Nat) : Call → Prop
  | clocked now => 0 < now
  | loaded now last => 0 < now ∧ (last = 0 ∨ last + stripeGrowthDwell ≤ now)
  | holding target => target ≤ room
  | _ => True

/-- The steps that are taken and not stored. -/
def StripePlan.owed (s : StripePlan) : Nat := s.calls.countP Call.owes

/-- What an access does. -/
inductive Moved (s : StripePlan) : Event → StripePlan → Prop
  | opened {stalled : Nat} (c : Call) (howes : c.owes = false) (hknows : ∀ room, c.Knows room) :
    Moved s (.noteStall stalled) { s with calls := s.calls ++ [c] }
  | looked {e : Event} {i : Nat} {c : Call} (c' : Call) (hi : s.calls[i]? = some c)
      (howes : c.owes = false) (howes' : c'.owes = false)
      (hknows : ∀ room, pastEpoch s e → c.Knows room → c'.Knows room) :
    Moved s e (s.setCall i c')
  | exchanged {i now : Nat} (hi : s.calls[i]? = some (.loaded now s.lastGrowth)) :
    Moved s (.exchange i)
      { s.setCall i .won with lastGrowth := now, stamps := s.stamps ++ [now] }
  | read {i : Nat} (hi : s.calls[i]? = some .won) : Moved s (.read i) (s.setCall i (.holding s.target))
  | stored {i t : Nat} (hi : s.calls[i]? = some (.holding t)) :
    Moved s (.store i)
      { s.setCall i (.returned (some (min (t + 1) maxStripes))) with
        target := min (t + 1) maxStripes }

theorem moved_of_step {s s' : StripePlan} {e : Event} (hstep : s.step e = some s') :
    Moved s e s' := by
  cases e with
  | noteStall stalled =>
    simp only [StripePlan.step] at hstep
    split at hstep
    · obtain rfl := Option.some.inj hstep
      exact .opened _ rfl fun _ => trivial
    · obtain rfl := Option.some.inj hstep
      exact .opened _ rfl fun _ => trivial
  | clock i now =>
    simp only [StripePlan.step] at hstep
    split at hstep
    · rename_i hi
      obtain rfl := Option.some.inj hstep
      exact .looked _ hi rfl rfl fun _ hpast _ => hpast
    · cases hstep
  | load i =>
    simp only [StripePlan.step] at hstep
    split at hstep
    · rename_i now hi
      split at hstep
      · obtain rfl := Option.some.inj hstep
        exact .looked _ hi rfl rfl fun _ _ _ => trivial
      · rename_i hdwell
        obtain rfl := Option.some.inj hstep
        have hold : s.lastGrowth = 0 ∨ s.lastGrowth + stripeGrowthDwell ≤ now := by
          rcases Nat.eq_zero_or_pos s.lastGrowth with hzero | hpos
          · exact .inl hzero
          · have hpassed : ¬ now - s.lastGrowth < stripeGrowthDwell :=
              fun hlt => hdwell ⟨Nat.pos_iff_ne_zero.mp hpos, hlt⟩
            unfold stripeGrowthDwell at *
            exact .inr (by omega)
        exact .looked _ hi rfl rfl fun _ _ hpast => ⟨hpast, hold⟩
    · cases hstep
  | exchange i =>
    simp only [StripePlan.step] at hstep
    split at hstep
    · rename_i now last hi
      split at hstep
      · rename_i heq
        obtain rfl := Option.some.inj hstep
        exact .exchanged (heq ▸ hi)
      · obtain rfl := Option.some.inj hstep
        exact .looked _ hi rfl rfl fun _ _ _ => trivial
    · cases hstep
  | read i =>
    simp only [StripePlan.step] at hstep
    split at hstep
    · rename_i hi
      obtain rfl := Option.some.inj hstep
      exact .read hi
    · cases hstep
  | store i =>
    simp only [StripePlan.step] at hstep
    split at hstep
    · rename_i t hi
      obtain rfl := Option.some.inj hstep
      exact .stored hi
    · cases hstep

/-- The target, with what is owed, is within the steps taken; the stamps stand a dwell apart, and
the one the next exchange meets is the latest of them. -/
structure Inv (target : Nat) (s : StripePlan) : Prop where
  low : 1 ≤ s.target
  high : s.target ≤ maxStripes
  within : s.target + s.owed ≤ clamp target + s.stamps.length
  knows : ∀ c ∈ s.calls, c.Knows (clamp target + s.stamps.length - s.owed)
  apart : s.stamps.Pairwise fun a b => a + stripeGrowthDwell ≤ b
  latest : ∀ a ∈ s.stamps, 0 < a ∧ a ≤ s.lastGrowth

namespace Inv

variable {target : Nat} {s s' : StripePlan} {i : Nat} {c c' : Call}

theorem clamp_pos (n : Nat) : 1 ≤ clamp n := Nat.le_max_left _ _

theorem clamp_le (n : Nat) : clamp n ≤ maxStripes :=
  Nat.max_le.mpr ⟨by decide, Nat.min_le_right _ _⟩

theorem new (target : Nat) : Inv target (.new target) where
  low := clamp_pos target
  high := clamp_le target
  within := Nat.le_refl _
  knows := fun c hc => by cases hc
  apart := List.Pairwise.nil
  latest := fun a ha => by cases ha

/-- A call moves on: what is owed changes by what it owes. -/
theorem owed_set (hi : s.calls[i]? = some c) (c' : Call) :
    (s.setCall i c').owed + (if c.owes then 1 else 0) = s.owed + if c'.owes then 1 else 0 := by
  obtain ⟨hlt, hget⟩ := List.getElem?_eq_some_iff.mp hi
  have hpos : (if c.owes then 1 else 0) ≤ s.calls.countP Call.owes := by
    split
    · rename_i howes
      exact List.countP_pos_iff.mpr ⟨c, hget ▸ List.getElem_mem hlt, howes⟩
    · exact Nat.zero_le _
  have hset := List.countP_set (p := Call.owes) (l := s.calls) (a := c') hlt
  rw [hget] at hset
  simp only [StripePlan.setCall, StripePlan.owed, hset]
  omega

theorem knows_mono {room room' : Nat} (hle : room ≤ room') : c.Knows room → c.Knows room' := by
  cases c with
  | holding t => exact fun h => Nat.le_trans h hle
  | _ => exact id

/-- A call that moves on without a step of its own: it owes as before, and knows what its new place
asks. -/
theorem move (h : Inv target s) (hi : s.calls[i]? = some c) (howes : c'.owes = c.owes)
    (hknows : c'.Knows (clamp target + s.stamps.length - s.owed)) :
    Inv target (s.setCall i c') := by
  have howed : (s.setCall i c').owed = s.owed := by
    have := owed_set hi c'
    rw [howes] at this
    omega
  exact
    { low := h.low
      high := h.high
      within := by
        rw [howed]
        exact h.within
      knows := fun d hd => by
        rw [howed]
        obtain hmem | rfl := List.mem_or_eq_of_mem_set hd
        · exact h.knows d hmem
        · exact hknows
      apart := h.apart
      latest := h.latest }

/-- A new call owes nothing. -/
theorem noteStall (h : Inv target s) (howes : c.owes = false)
    (hknows : ∀ room, c.Knows room) : Inv target { s with calls := s.calls ++ [c] } := by
  have howed : StripePlan.owed { s with calls := s.calls ++ [c] } = s.owed := by
    simp [StripePlan.owed, howes]
  exact
    { low := h.low
      high := h.high
      within := by
        rw [howed]
        exact h.within
      knows := fun d hd => by
        rw [howed]
        obtain hmem | hmem := List.mem_append.mp hd
        · exact h.knows d hmem
        · rw [List.mem_singleton.mp hmem]
          exact hknows _
      apart := h.apart
      latest := h.latest }

/-- The exchange takes a step: the stamp is a dwell after the one before, and there is room for one
more. -/
theorem exchange (h : Inv target s) {now : Nat}
    (hi : s.calls[i]? = some (.loaded now s.lastGrowth)) :
    Inv target
      { s.setCall i .won with lastGrowth := now, stamps := s.stamps ++ [now] } := by
  obtain ⟨hpast, hold⟩ := h.knows _ (List.mem_of_getElem? hi)
  have howed : (s.setCall i .won).owed = s.owed + 1 := owed_set hi .won
  have hroom : clamp target + (s.stamps ++ [now]).length - (s.setCall i .won).owed
      = clamp target + s.stamps.length - s.owed := by
    rw [howed, List.length_append, List.length_singleton]
    omega
  have hafter : ∀ a ∈ s.stamps, a + stripeGrowthDwell ≤ now := by
    intro a ha
    obtain ⟨hapos, hale⟩ := h.latest a ha
    obtain hnone | hdwell := hold
    · omega
    · exact Nat.le_trans (Nat.add_le_add_right hale _) hdwell
  refine { low := h.low, high := h.high, within := ?_, knows := ?_, apart := ?_, latest := ?_ }
  · show s.target + (s.setCall i .won).owed ≤ clamp target + (s.stamps ++ [now]).length
    rw [howed, List.length_append, List.length_singleton]
    exact Nat.succ_le_succ h.within
  · intro d hd
    show d.Knows (clamp target + (s.stamps ++ [now]).length - (s.setCall i .won).owed)
    rw [hroom]
    obtain hmem | rfl := List.mem_or_eq_of_mem_set hd
    · exact h.knows d hmem
    · exact trivial
  · refine List.pairwise_append.mpr ⟨h.apart, List.pairwise_singleton _ _, ?_⟩
    intro a ha b hb
    rw [List.mem_singleton.mp hb]
    exact hafter a ha
  · intro a ha
    obtain hmem | hmem := List.mem_append.mp ha
    · exact ⟨(h.latest a hmem).1, Nat.le_of_add_right_le (hafter a hmem)⟩
    · rw [List.mem_singleton.mp hmem]
      exact ⟨hpast, Nat.le_refl _⟩

/-- The store settles what the call owes. -/
theorem store (h : Inv target s) {t : Nat} (hi : s.calls[i]? = some (.holding t)) :
    Inv target
      { s.setCall i (.returned (some (min (t + 1) maxStripes))) with
        target := min (t + 1) maxStripes } := by
  have hroom : t ≤ clamp target + s.stamps.length - s.owed :=
    h.knows _ (List.mem_of_getElem? hi)
  have howed := owed_set hi (.returned (some (min (t + 1) maxStripes)))
  have hwithin := h.within
  have hlow := h.low
  simp only [Call.owes, if_true, Bool.false_eq_true, if_false, Nat.add_zero] at howed
  refine { low := ?_, high := Nat.min_le_right _ _, within := ?_, knows := ?_, apart := h.apart,
           latest := h.latest }
  · exact Nat.le_min.mpr ⟨Nat.le_add_left _ _, by decide⟩
  · have hmin : min (t + 1) maxStripes ≤ t + 1 := Nat.min_le_left _ _
    show min (t + 1) maxStripes + (s.setCall i _).owed ≤ clamp target + s.stamps.length
    omega
  · intro d hd
    show d.Knows (clamp target + s.stamps.length - (s.setCall i _).owed)
    obtain hmem | rfl := List.mem_or_eq_of_mem_set hd
    · exact knows_mono (by omega) (h.knows d hmem)
    · exact trivial

/-- Every access keeps the invariant, while the clock is past the epoch. -/
theorem step {e : Event} (hclock : pastEpoch s e) (hstep : s.step e = some s')
    (h : Inv target s) : Inv target s' := by
  cases moved_of_step hstep with
  | opened c howes hknows => exact h.noteStall howes hknows
  | looked c' hi howes howes' hknows =>
    refine h.move hi (howes'.trans howes.symm) ?_
    exact hknows _ hclock (h.knows _ (List.mem_of_getElem? hi))
  | exchanged hi => exact h.exchange hi
  | read hi => exact h.move hi rfl (Nat.le_sub_of_add_le h.within)
  | stored hi => exact h.store hi

end Inv

theorem inv_of_reach {target : Nat} {s : StripePlan}
    (hr : ((plan target).restrict pastEpoch).Reach s) : Inv target s :=
  hr.invariant (fun _ h0 => h0 ▸ .new target) fun _ _ _ hinv hs => hinv.step hs.1 hs.2

/-- Over every interleaving of any number of reports, while the clock is past the epoch and whatever
else it does: the width stays between one and `maxStripes` and within the steps that were taken, the
steps stand a dwell apart, and so any `w` milliseconds hold one step for every dwell in them, and
one more. -/
theorem plan_paced {target : Nat} {s : StripePlan}
    (hr : ((plan target).restrict pastEpoch).Reach s) :
    1 ≤ s.target ∧ s.target ≤ maxStripes ∧ s.width = s.target ∧
    s.target ≤ clamp target + s.stamps.length ∧
    s.stamps.Pairwise (fun a b => a + stripeGrowthDwell ≤ b) ∧
    ∀ x w, (s.stamps.filter fun a => decide (x ≤ a ∧ a ≤ x + w)).length
      ≤ w / stripeGrowthDwell + 1 := by
  have hinv := inv_of_reach hr
  have hwidth : s.width = s.target := by
    rw [StripePlan.width, clamp, Nat.min_eq_left hinv.high, Nat.max_eq_right hinv.low]
  refine ⟨hinv.low, hinv.high, hwidth, ?_, hinv.apart, ?_⟩
  · exact Nat.le_trans (Nat.le_add_right _ _) hinv.within
  · intro x w
    exact count_window (by decide) hinv.apart

/-- The witness run: a report takes a step, one that comes 400 ms later takes none, and one that
comes 500 ms later takes the next. -/
def threeReports : List Event :=
  [.noteStall 250, .clock 0 1000, .load 0, .exchange 0, .read 0, .store 0,
   .noteStall 300, .clock 1 1400, .load 1,
   .noteStall 300, .clock 2 1500, .load 2, .exchange 2, .read 2, .store 2]

theorem plan_paced_three :
    ∃ s, ((plan 1).restrict pastEpoch).Reach s ∧ s.stamps = [1000, 1500] ∧ s.width = 3 ∧
      1 ≤ s.target ∧ s.target ≤ maxStripes ∧ s.width = s.target ∧
      s.target ≤ clamp 1 + s.stamps.length ∧
      s.stamps.Pairwise (fun a b => a + stripeGrowthDwell ≤ b) ∧
      ∀ x w, (s.stamps.filter fun a => decide (x ≤ a ∧ a ≤ x + w)).length
        ≤ w / stripeGrowthDwell + 1 := by
  have hrun : (Lts.runWith StripePlan.step (fun s e => decide (pastEpoch s e)) (.new 1)
      threeReports).any (fun s => decide (s.stamps = [1000, 1500] ∧ s.width = 3)) = true := by
    decide
  obtain ⟨s, hr, hend⟩ := Lts.Reach.exists_runWith (T := plan 1) (C := pastEpoch)
    (fun _ _ _ h => h) (fun _ _ h => of_decide_eq_true h) rfl hrun
  obtain ⟨hstamps, hwidth⟩ := of_decide_eq_true hend
  exact ⟨s, hr, hstamps, hwidth, plan_paced hr⟩

/-! ## 4. Where the steps are stored one by one -/

/-- A report takes its step when no other report's step waits to be stored. -/
def inTurn (s : StripePlan) : Event → Prop
  | .exchange _ => s.owed = 0
  | _ => True

/-- The target is exact, and so is the one a report holds. -/
structure Exact (target : Nat) (s : StripePlan) : Prop where
  one : s.owed ≤ 1
  taken : s.owed ≤ s.stamps.length
  target : s.target = min maxStripes (clamp target + (s.stamps.length - s.owed))
  holds : ∀ t, .holding t ∈ s.calls → t = s.target

namespace Exact

variable {target : Nat} {s s' : StripePlan}

theorem new (target : Nat) : Exact target (.new target) where
  one := Nat.zero_le _
  taken := Nat.le_refl _
  target := (Nat.min_eq_right (Inv.clamp_le target)).symm
  holds := fun t ht => by cases ht

/-- Every access keeps it, while the steps are taken in turn. -/
theorem step {e : Event} (hturn : inTurn s e) (hstep : s.step e = some s') (h : Exact target s) :
    Exact target s' := by
  cases moved_of_step hstep with
  | opened c howes hknows =>
    have howed : StripePlan.owed { s with calls := s.calls ++ [c] } = s.owed := by
      simp [StripePlan.owed, howes]
    refine ⟨?_, ?_, ?_, ?_⟩
    · rw [howed]
      exact h.one
    · rw [howed]
      exact h.taken
    · rw [howed]
      exact h.target
    · intro t ht
      obtain hmem | hmem := List.mem_append.mp ht
      · exact h.holds t hmem
      · rw [← List.mem_singleton.mp hmem] at howes
        cases howes
  | looked c' hi howes howes' hknows =>
    have howed := Inv.owed_set hi c'
    rw [howes, howes', Nat.add_right_cancel_iff] at howed
    refine ⟨?_, ?_, ?_, ?_⟩
    · rw [howed]
      exact h.one
    · rw [howed]
      exact h.taken
    · rw [howed]
      exact h.target
    · intro t ht
      obtain hmem | rfl := List.mem_or_eq_of_mem_set ht
      · exact h.holds t hmem
      · cases howes'
  | @exchanged i now hi =>
    have hnone : s.owed = 0 := hturn
    have howed : (s.setCall i .won).owed = s.owed + 1 := Inv.owed_set hi .won
    have hlen : (s.stamps ++ [now]).length = s.stamps.length + 1 := by
      rw [List.length_append, List.length_singleton]
    refine ⟨?_, ?_, ?_, ?_⟩
    · show (s.setCall i .won).owed ≤ 1
      exact Nat.le_of_eq (by rw [howed, hnone])
    · show (s.setCall i .won).owed ≤ (s.stamps ++ [now]).length
      rw [howed, hlen]
      exact Nat.succ_le_succ h.taken
    · show s.target = min maxStripes
        (clamp target + ((s.stamps ++ [now]).length - (s.setCall i .won).owed))
      rw [howed, hlen, Nat.add_sub_add_right]
      exact h.target
    · intro t ht
      obtain hmem | heq := List.mem_or_eq_of_mem_set ht
      · exact h.holds t hmem
      · cases heq
  | @read i hi =>
    have howed : (s.setCall i (.holding s.target)).owed = s.owed :=
      Nat.add_right_cancel (Inv.owed_set hi (.holding s.target))
    refine ⟨?_, ?_, ?_, ?_⟩
    · rw [howed]
      exact h.one
    · rw [howed]
      exact h.taken
    · rw [howed]
      exact h.target
    · intro t ht
      obtain hmem | heq := List.mem_or_eq_of_mem_set ht
      · exact h.holds t hmem
      · exact Call.holding.inj heq
  | @stored i t hi =>
    obtain rfl := h.holds t (List.mem_of_getElem? hi)
    have howed : (s.setCall i (.returned (some (min (s.target + 1) maxStripes)))).owed + 1 = s.owed :=
      Inv.owed_set hi _
    have hone := h.one
    have htaken := h.taken
    have htarget := h.target
    have hzero : (s.setCall i (.returned (some (min (s.target + 1) maxStripes)))).owed = 0 := by
      omega
    refine ⟨?_, ?_, ?_, ?_⟩
    · show (s.setCall i _).owed ≤ 1
      rw [hzero]
      exact Nat.zero_le _
    · show (s.setCall i _).owed ≤ s.stamps.length
      rw [hzero]
      exact Nat.zero_le _
    · show min (s.target + 1) maxStripes
        = min maxStripes (clamp target + (s.stamps.length - (s.setCall i _).owed))
      rw [hzero]
      omega
    · intro t ht
      exact absurd rfl (List.countP_eq_zero.mp hzero _ ht)

end Exact

/-- While the steps are taken in turn none is lost: once they are stored, the width is the first
one and every step, up to `maxStripes`. -/
theorem plan_exact {target : Nat} {s : StripePlan} (hr : ((plan target).restrict inTurn).Reach s)
    (hstored : s.owed = 0) : s.width = min maxStripes (clamp target + s.stamps.length) := by
  have hexact : Exact target s :=
    hr.invariant (fun _ h0 => h0 ▸ .new target) fun _ _ _ h hs => h.step hs.1 hs.2
  have htarget := hexact.target
  have hpos := Inv.clamp_pos target
  rw [hstored, Nat.sub_zero] at htarget
  rw [StripePlan.width, clamp, htarget, Nat.min_eq_left (Nat.min_le_left _ _)]
  exact Nat.max_eq_right (Nat.le_min.mpr ⟨by decide, Nat.le_add_right_of_le hpos⟩)

/-- A report is held up with the target it loaded while two others take their steps. -/
def heldUp : List Event :=
  [.noteStall 250, .clock 0 1000, .load 0, .exchange 0, .read 0,
   .noteStall 250, .clock 1 1500, .load 1, .exchange 1, .read 1, .store 1,
   .noteStall 250, .clock 2 2000, .load 2, .exchange 2, .read 2, .store 2,
   .store 0]

/-- Out of turn, a report that is held up before its store takes back what two others added. -/
theorem growth_taken_back :
    ∃ s, (plan 1).Reach s ∧ s.stamps = [1000, 1500, 2000] ∧ s.owed = 0 ∧ s.width = 2 := by
  have hrun : (Lts.runWith StripePlan.step (fun _ _ => true) (.new 1) heldUp).any
      (fun s => decide (s.stamps = [1000, 1500, 2000] ∧ s.owed = 0 ∧ s.width = 2)) = true := by
    decide
  obtain ⟨s, hr, hend⟩ := Lts.Reach.exists_run (T := plan 1) (fun _ _ _ h => h) rfl hrun
  exact ⟨s, hr, of_decide_eq_true hend⟩

end Molehill.Stripe.Plan
