/-
# The tunnel pool: placement

The placement rule of the pinned tunnel pool: which tunnel a new stream is charged to.  The pure
part (`order_candidates`, `order_candidates_for`, `tunnel_ceiling`) is `transport/pool.rs`; the
part that reads the pool is `TunnelPool::reserve`.

A tunnel's counters are shared between the pool, the opens in flight and the streams handed out,
and outlive the tunnel's entry, so they are kept apart from the entries, by tunnel id.
-/
import Mathlib.Algebra.GroupWithZero.Nat
import Mathlib.Data.List.Sort
import Mathlib.Logic.Function.Basic

namespace Molehill.Pool

open Function

/-! ## 1. The data -/

/-- What carries a tunnel. -/
inductive Carrier
  | tcp
  | kcp
  deriving DecidableEq

/-- Draining entries keep established streams but receive no new opens. -/
inductive TunnelPhase
  | serving
  | draining
  deriving DecidableEq

/-- One tunnel's bookkeeping: established streams, and opens requested but not yet completed. -/
structure TunnelCounters where
  streams : Nat
  pending : Nat
  deriving DecidableEq

namespace TunnelCounters

/-- The load placement compares. -/
def total (c : TunnelCounters) : Nat := c.streams + c.pending

/-- Charge one open before it is awaited. -/
def reserve (c : TunnelCounters) : TunnelCounters := { c with pending := c.pending + 1 }

/-- The open failed or was abandoned: the reservation comes back. -/
def release (c : TunnelCounters) : TunnelCounters := { c with pending := c.pending - 1 }

/-- The open completed: the reservation becomes a live stream. -/
def charge (c : TunnelCounters) : TunnelCounters := ⟨c.streams + 1, c.pending - 1⟩

/-- The drop of a `StreamLease`. -/
def retire (c : TunnelCounters) : TunnelCounters := { c with streams := c.streams - 1 }

end TunnelCounters

/-- One live tunnel of a pool, by its process-unique id. -/
structure PoolEntry where
  carrier : Carrier
  phase : TunnelPhase
  tunnel : Nat
  deriving DecidableEq

/-- What S1 records of a placement. -/
structure Placement where
  chosen : Nat
  candidates : Nat
  best : TunnelCounters
  worst : TunnelCounters
  chosenLoad : TunnelCounters
  fallback : Bool
  deriving DecidableEq

/-- One reserved, not yet completed open: the tunnel's index in the pool, what S1 records, and
the tunnel. -/
structure Reservation where
  index : Nat
  placement : Placement
  tunnel : Nat
  deriving DecidableEq

/-! ## 2. The rules of `pool.rs` -/

/-- `OPEN_BUDGET`: the in-flight open budget of one tunnel. -/
def openBudget : Nat := 16

/-- `TUNNEL_STREAM_CEILING`. -/
def tunnelStreamCeiling : Nat := 56

/-- `DEFAULT_MUX_MAX_STREAMS`, which `stream_cap()` gives. -/
def streamCap : Nat := 64

/-- `tunnel_ceiling`: the streams one tunnel may carry. -/
def tunnelCeiling (streamCap : Nat) : Nat :=
  max (min tunnelStreamCeiling (streamCap - max (streamCap / 8) 1)) 1

/-- `order_candidates`: least-loaded first, the cursor breaking ties. -/
def orderCandidates (loads : List TunnelCounters) (start : Nat) : List Nat :=
  let n := loads.length
  let key (i : Nat) : Nat × Nat :=
    ((loads.getD i ⟨0, 0⟩).total, (i + n - start % n) % n)
  (List.range n).insertionSort fun i j =>
    (key i).1 < (key j).1 ∨ ((key i).1 = (key j).1 ∧ (key i).2 ≤ (key j).2)

/-- `order_candidates_for`: what was tried is never revisited, what the group has is avoided
while something else is left. -/
def orderCandidatesFor (order tried avoid : List Nat) : List Nat :=
  let candidates := order.filter fun i => !tried.contains i && !avoid.contains i
  if candidates.isEmpty && !avoid.isEmpty then order.filter fun i => !tried.contains i
  else candidates

/-! ## 3. `TunnelPool::reserve` -/

/-- What `reserve` reads and writes: the entries and the cursor under the `state` lock, the
probed carrier under the `probe` lock, and the shared counters. -/
structure PoolState where
  entries : List PoolEntry
  nextCursor : Nat
  probe : Option Carrier
  counters : Nat → TunnelCounters

namespace PoolState

/-- `PoolEntry::load`. -/
def load (s : PoolState) (e : PoolEntry) : TunnelCounters := s.counters e.tunnel

def loadAt (s : PoolState) (index : Nat) : Option TunnelCounters :=
  s.entries[index]?.map s.load

/-- The serving tunnels, least-loaded first. -/
def servingOrder (s : PoolState) : List Nat :=
  (orderCandidates (s.entries.map s.load) s.nextCursor).filter fun index =>
    s.entries[index]?.any fun e => e.phase = .serving

/-- The first serving tunnel of the probed carrier. -/
def probeIndex (s : PoolState) : Option Nat :=
  s.probe.bind fun probed =>
    s.entries.findIdx? fun e => e.phase = .serving ∧ e.carrier = probed

/-- The same with a running probe's tunnel in front. -/
def order (s : PoolState) : List Nat :=
  match s.probeIndex with
  | some index => index :: s.servingOrder.filter (· ≠ index)
  | none => s.servingOrder

def candidates (s : PoolState) (tried avoid : List Nat) : List Nat :=
  orderCandidatesFor s.order tried avoid

/-- The loop over the candidates: the first one under the ceiling with pending budget left, and
the first one under the ceiling without. -/
def chooseLoop (s : PoolState) (ceiling : Nat) :
    List Nat → Option Nat → Option Nat × Option Nat
  | [], overBudget => (none, overBudget)
  | index :: rest, overBudget =>
    match s.loadAt index with
    | none => s.chooseLoop ceiling rest overBudget
    | some load =>
      if ceiling ≤ load.total then s.chooseLoop ceiling rest overBudget
      else if load.pending < openBudget then (some index, overBudget)
      else s.chooseLoop ceiling rest (overBudget.or (some index))

/-- The index placement answers, and whether it is over its budget. -/
def choose (s : PoolState) (tried avoid : List Nat) (ceiling : Nat) : Option (Nat × Bool) :=
  match s.chooseLoop ceiling (s.candidates tried avoid) none with
  | (some index, _) => some (index, false)
  | (none, some index) => some (index, true)
  | (none, none) => none

/-- The cursor moves on with every look. -/
def moveCursor (s : PoolState) : PoolState :=
  { s with nextCursor := (s.nextCursor + 1) % 2 ^ 64 }

/-- One operation on a tunnel's counters. -/
def touch (s : PoolState) (t : Nat) (f : TunnelCounters → TunnelCounters) : PoolState :=
  { s with counters := update s.counters t (f (s.counters t)) }

/-- The open is charged to the entry. -/
def charged (s : PoolState) (e : PoolEntry) : PoolState :=
  s.moveCursor.touch e.tunnel TunnelCounters.reserve

/-- The reservation of the entry at `index`; the loads it records are those after the charge. -/
def reservation (s : PoolState) (index : Nat) (fallback : Bool) (e : PoolEntry) : Reservation :=
  let load := (s.charged e).load e
  let worst := (s.order.getLast?.bind (s.charged e).loadAt).getD ⟨0, 0⟩
  ⟨index, ⟨index, s.order.length, load, worst, load, fallback⟩, e.tunnel⟩

/-- `TunnelPool::reserve`. -/
def reserve (s : PoolState) (tried avoid : List Nat) (ceiling : Nat) :
    PoolState × Option Reservation :=
  match s.choose tried avoid ceiling with
  | none => (s.moveCursor, none)
  | some (index, fallback) =>
    match s.entries[index]? with
    | none => (s.moveCursor, none)
    | some e => (s.charged e, some (s.reservation index fallback e))

end PoolState

/-! ## 4. What `reserve` does -/

open PoolState

variable {s s' : PoolState} {tried avoid : List Nat} {ceiling : Nat}

/-- **`reserve` either leaves the counters alone or charges one open to a tunnel of the pool.** -/
theorem reserve_cases (s : PoolState) (tried avoid : List Nat) (ceiling : Nat) :
    s.reserve tried avoid ceiling = (s.moveCursor, none) ∨
      ∃ r e, e ∈ s.entries ∧ r.tunnel = e.tunnel ∧
        s.reserve tried avoid ceiling = (s.charged e, some r) := by
  unfold PoolState.reserve
  cases hc : s.choose tried avoid ceiling with
  | none => exact Or.inl rfl
  | some c =>
    obtain ⟨index, fallback⟩ := c
    cases he : s.entries[index]? with
    | none =>
      left
      simp [he]
    | some e =>
      right
      refine ⟨s.reservation index fallback e, e, List.mem_of_getElem? he, rfl, ?_⟩
      simp [he]

/-- A tunnel at the ceiling. -/
def Full (s : PoolState) (ceiling : Nat) (index : Nat) : Prop :=
  ∀ load, s.loadAt index = some load → ceiling ≤ load.total

theorem chooseLoop_none_iff (s : PoolState) (ceiling : Nat) (l : List Nat) (ob : Option Nat) :
    s.chooseLoop ceiling l ob = (none, none) ↔ ob = none ∧ ∀ i ∈ l, Full s ceiling i := by
  induction l generalizing ob with
  | nil => simp [chooseLoop]
  | cons i rest ih =>
    rw [chooseLoop]
    cases hl : s.loadAt i with
    | none =>
      simp only [ih]
      simp [Full, hl]
    | some load =>
      have hfull : Full s ceiling i ↔ ceiling ≤ load.total := by simp [Full, hl]
      by_cases hc : ceiling ≤ load.total
      · dsimp only
        rw [if_pos hc, ih, List.forall_mem_cons, hfull]
        simp [hc]
      · dsimp only
        rw [if_neg hc]
        by_cases hb : load.pending < openBudget
        · simp [if_pos hb, hfull, hc]
        · rw [if_neg hb, ih]
          simp [hfull, hc]

/-- What the loop answers is one of the candidates. -/
theorem chooseLoop_mem (s : PoolState) (ceiling : Nat) (l : List Nat) (ob : Option Nat) :
    (∀ i, (s.chooseLoop ceiling l ob).1 = some i → i ∈ l) ∧
      ∀ i, (s.chooseLoop ceiling l ob).2 = some i → i ∈ l ∨ ob = some i := by
  induction l generalizing ob with
  | nil => simp [chooseLoop]
  | cons j rest ih =>
    rw [chooseLoop]
    cases hl : s.loadAt j with
    | none =>
      refine ⟨fun i h => List.mem_cons_of_mem j ((ih ob).1 i h), fun i h => ?_⟩
      rcases (ih ob).2 i h with h | h
      · exact Or.inl (List.mem_cons_of_mem j h)
      · exact Or.inr h
    | some load =>
      dsimp only
      split
      · refine ⟨fun i h => List.mem_cons_of_mem j ((ih ob).1 i h), fun i h => ?_⟩
        rcases (ih ob).2 i h with h | h
        · exact Or.inl (List.mem_cons_of_mem j h)
        · exact Or.inr h
      · split
        · exact ⟨fun i h => by simp_all, fun i h => Or.inr h⟩
        · refine ⟨fun i h => List.mem_cons_of_mem j ((ih _).1 i h), fun i h => ?_⟩
          rcases (ih _).2 i h with h | h
          · exact Or.inl (List.mem_cons_of_mem j h)
          · cases ob with
            | none =>
              left
              simp_all
            | some x => exact Or.inr h

theorem choose_mem {i : Nat} {f : Bool} (h : s.choose tried avoid ceiling = some (i, f)) :
    i ∈ s.candidates tried avoid := by
  have hm := chooseLoop_mem s ceiling (s.candidates tried avoid) none
  unfold choose at h
  split at h
  case h_1 index ob heq =>
    rw [heq] at hm
    cases h
    exact hm.1 _ rfl
  case h_2 index heq =>
    rw [heq] at hm
    cases h
    rcases hm.2 _ rfl with h | h
    · exact h
    · cases h
  case h_3 => cases h

/-- The indices of the order are indices of entries. -/
theorem mem_orderCandidates {loads : List TunnelCounters} {start i : Nat} :
    i ∈ orderCandidates loads start ↔ i < loads.length := by
  unfold orderCandidates
  rw [List.mem_insertionSort, List.mem_range]

theorem mem_servingOrder {i : Nat} :
    i ∈ s.servingOrder ↔ ∃ e, s.entries[i]? = some e ∧ e.phase = .serving := by
  unfold servingOrder
  rw [List.mem_filter, mem_orderCandidates, List.length_map]
  constructor
  · rintro ⟨hi, hs⟩
    rw [List.getElem?_eq_getElem hi] at hs
    exact ⟨s.entries[i], List.getElem?_eq_getElem hi, by simpa using hs⟩
  · rintro ⟨e, he, hs⟩
    obtain ⟨hi, -⟩ := List.getElem?_eq_some_iff.mp he
    exact ⟨hi, by simp [he, hs]⟩

theorem mem_order {i : Nat} :
    i ∈ s.order ↔ ∃ e, s.entries[i]? = some e ∧ e.phase = .serving := by
  unfold order
  cases hp : s.probeIndex with
  | none => exact mem_servingOrder
  | some p =>
    have hserving : ∃ e, s.entries[p]? = some e ∧ e.phase = .serving := by
      unfold probeIndex at hp
      obtain ⟨c, -, hf⟩ := Option.bind_eq_some_iff.mp hp
      obtain ⟨hlt, hpred, -⟩ := List.findIdx?_eq_some_iff_getElem.mp hf
      refine ⟨s.entries[p], List.getElem?_eq_getElem hlt, ?_⟩
      simp only [decide_eq_true_eq] at hpred
      exact hpred.1
    rw [List.mem_cons, List.mem_filter, mem_servingOrder]
    constructor
    · rintro (rfl | ⟨h, -⟩)
      · exact hserving
      · exact h
    · intro h
      by_cases hi : i = p
      · exact Or.inl hi
      · exact Or.inr ⟨h, by simpa using hi⟩

/-- A candidate is an entry of the pool. -/
theorem mem_candidates {i : Nat} (h : i ∈ s.candidates tried avoid) :
    ∃ e, s.entries[i]? = some e ∧ e.phase = .serving := by
  unfold candidates orderCandidatesFor at h
  apply mem_order.mp
  dsimp only at h
  split at h
  · exact (List.mem_filter.mp h).1
  · exact (List.mem_filter.mp h).1

/-- **`reserve` refuses exactly when every candidate is at the ceiling.** -/
theorem reserve_none_iff :
    (s.reserve tried avoid ceiling).2 = none ↔
      ∀ i ∈ s.candidates tried avoid, Full s ceiling i := by
  have hloop : s.choose tried avoid ceiling = none ↔
      ∀ i ∈ s.candidates tried avoid, Full s ceiling i := by
    have hiff := chooseLoop_none_iff s ceiling (s.candidates tried avoid) none
    unfold choose
    constructor
    · intro hn
      split at hn
      case h_1 => cases hn
      case h_2 => cases hn
      case h_3 heq => exact (hiff.mp heq).2
    · intro hall
      rw [hiff.mpr ⟨rfl, hall⟩]
  rw [← hloop]
  unfold PoolState.reserve
  cases hc : s.choose tried avoid ceiling with
  | none => simp
  | some c =>
    obtain ⟨e, he, -⟩ := mem_candidates (choose_mem hc)
    simp [he]

end Molehill.Pool
