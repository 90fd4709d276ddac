/-
# A bounded channel

A queue with room for `cap` messages; a sender that finds it full keeps its message.  The bound is
a field, so no step has to prove it again.

Nothing here is about any particular program.
-/
import Mathlib.Algebra.GroupWithZero.Nat
import Mathlib.Data.List.Basic

universe u

namespace Lib

/-- A channel of depth `cap`. -/
structure BoundedChannel (α : Type u) (cap : Nat) where
  queue : List α
  fits : queue.length ≤ cap
  deriving DecidableEq

namespace BoundedChannel

variable {α : Type u} {cap : Nat}

def empty : BoundedChannel α cap := ⟨[], Nat.zero_le cap⟩

/-- The messages the channel still takes. -/
def capacity (c : BoundedChannel α cap) : Nat := cap - c.queue.length

/-- Put `a` at the end, if there is room. -/
def trySend (c : BoundedChannel α cap) (a : α) : Option (BoundedChannel α cap) :=
  if h : c.queue.length < cap then
    some ⟨c.queue ++ [a], by rw [List.length_append]; exact h⟩
  else none

/-- Take the message at the front. -/
def tryRecv (c : BoundedChannel α cap) : Option (α × BoundedChannel α cap) :=
  match hq : c.queue with
  | [] => none
  | a :: rest => some (a, ⟨rest, by
      have h := c.fits
      rw [hq, List.length_cons] at h
      exact Nat.le_of_succ_le h⟩)

@[simp] theorem queue_empty : (empty : BoundedChannel α cap).queue = [] := rfl

theorem queue_trySend {c c' : BoundedChannel α cap} {a : α} (h : c.trySend a = some c') :
    c'.queue = c.queue ++ [a] := by
  rw [trySend] at h
  split at h
  · cases h
    rfl
  · cases h

theorem trySend_of_lt {c : BoundedChannel α cap} (a : α) (h : c.queue.length < cap) :
    ∃ c', c.trySend a = some c' := by
  rw [trySend, dif_pos h]
  exact ⟨_, rfl⟩

theorem trySend_of_full {c : BoundedChannel α cap} (a : α) (h : c.queue.length = cap) :
    c.trySend a = none := by
  rw [trySend, dif_neg (by omega)]

theorem queue_tryRecv {c c' : BoundedChannel α cap} {a : α} (h : c.tryRecv = some (a, c')) :
    c.queue = a :: c'.queue := by
  rw [tryRecv] at h
  split at h
  case h_1 => cases h
  case h_2 rest hq =>
    cases h
    exact hq

theorem queue_of_tryRecv {c : BoundedChannel α cap} (h : c.tryRecv = none) : c.queue = [] := by
  rw [tryRecv] at h
  split at h
  case h_1 hq => exact hq
  case h_2 => cases h

theorem tryRecv_of_cons {c : BoundedChannel α cap} {a : α} {rest : List α}
    (h : c.queue = a :: rest) : ∃ c', c.tryRecv = some (a, c') ∧ c'.queue = rest := by
  cases hr : c.tryRecv with
  | none =>
    rw [queue_of_tryRecv hr] at h
    cases h
  | some p =>
    have hq := queue_tryRecv hr
    rw [h] at hq
    cases hq
    exact ⟨p.2, rfl, rfl⟩

theorem tryRecv_of_nil {c : BoundedChannel α cap} (h : c.queue = []) : c.tryRecv = none := by
  cases hr : c.tryRecv with
  | none => rfl
  | some p =>
    have hq := queue_tryRecv hr
    rw [h] at hq
    cases hq

end BoundedChannel

end Lib
