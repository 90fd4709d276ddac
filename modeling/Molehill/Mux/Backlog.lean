/-
# The queues in front of the socket

Below the byte bound a receiver that is ready is served sooner or later, and the accounts say that
an empty queue is below it.  So two live connections whose queues, sockets and receivers have
nothing left to do have no frame of any stream on its way (`Quiescent.line_nil`).
-/
import Molehill.Mux.Accounts

namespace Molehill.Mux

open Function Lib

/-! ## 1. A ready receiver is found -/

namespace Active

variable {c : Active} {id : StreamId}

/-- The scan reaches every receiver. -/
theorem scan_isSome (hid : id ∈ c.receivers) (hready : (c.pollNext id).isSome = true) :
    c.scan.isSome = true := by
  obtain ⟨i, hi, hget⟩ := List.mem_iff_getElem.mp hid
  have hn : 0 < c.receivers.length := Nat.zero_lt_of_lt hi
  have hstart : c.recvCursor % c.receivers.length < c.receivers.length := Nat.mod_lt _ hn
  rw [scan, List.find?_isSome]
  refine ⟨i, List.mem_map.mpr ?_, ?_⟩
  · -- the offset at which the scan comes to `i`
    by_cases hle : c.recvCursor % c.receivers.length ≤ i
    · refine ⟨i - c.recvCursor % c.receivers.length, List.mem_range.mpr (by omega), ?_⟩
      rw [Nat.add_sub_cancel' hle, Nat.mod_eq_of_lt hi]
    · refine ⟨i + c.receivers.length - c.recvCursor % c.receivers.length,
        List.mem_range.mpr (by omega), ?_⟩
      rw [Nat.add_sub_cancel' (by omega), Nat.add_mod_right, Nat.mod_eq_of_lt hi]
  · rw [List.getElem?_eq_getElem hi, hget]
    exact hready

/-- Below the byte bound a ready receiver is served. -/
theorem queue_isSome (hid : id ∈ c.receivers) (hready : (c.pollNext id).isSome = true)
    (hb : c.pendingBytes < c.maxPendingBytes) : c.queueReceiverFrames ≠ none := by
  obtain ⟨i, hi⟩ := Option.isSome_iff_exists.mp (scan_isSome hid hready)
  have hfound := List.find?_some hi
  obtain ⟨k, hk, hr⟩ := (Option.any_eq_true ..).mp hfound
  obtain ⟨answer, ha⟩ := Option.isSome_iff_exists.mp hr
  rw [queueReceiverFrames, if_pos hb, hi]
  simp only [Option.bind_eq_bind, Option.bind_some, hk, ha]
  intro he
  cases he

end Active

/-! ## 2. Connections with nothing left to do -/

/-- Neither connection has a frame to take, to start, to write or to read. -/
def World.Quiescent (w : World) : Prop :=
  ∀ m, w.step (.act m .queue) = none ∧ w.step (.act m .start) = none ∧
    w.step (.act m .flush) = none ∧ w.step (.receive m) = none

/-- A socket that has nothing to write, and queues that have nothing for it. -/
theorem Active.idle_of_none {c : Active} (hfl : c.flush = none) (hst : c.startFrame = none) :
    c.socket = none ∧ c.pendingReadFrame = none ∧ c.controlFrames = [] ∧ c.pendingFrames = [] := by
  have hso : c.socket = none := Option.map_eq_none_iff.mp hfl
  rw [startFrame, hso] at hst
  have hn : c.nextQueuedFrame = none := Option.map_eq_none_iff.mp hst
  rw [nextQueuedFrame] at hn
  split at hn
  case h_4 hp hct hpe => exact ⟨hso, hp, hct, hpe⟩
  all_goals cases hn

/-- **When neither connection has anything left to do, nothing is on its way.** -/
theorem World.Quiescent.line_nil {w : World} (hq : w.Quiescent) (hc : w.Connected)
    (hag : Agree w) (hmet : ∀ m, (w m).Metered) (m : Mode) (id : StreamId) :
    ((w m).view id).line = [] := by
  have hact : ∀ k op, w.step (.act k op) = none → (w k).act op = none := by
    intro k op h
    rw [World.step, World.act, hc k] at h
    exact Option.map_eq_none_iff.mp h
  have hidle : ∀ k, (w k).socket = none ∧ (w k).pendingReadFrame = none ∧
      (w k).controlFrames = [] ∧ (w k).pendingFrames = [] := fun k =>
    Active.idle_of_none (hact k _ (hq k).2.2.1) (hact k _ (hq k).2.1)
  obtain ⟨hso, hpr, hct, hpe⟩ := hidle m
  have hwire : (w m).wire = [] := by
    have hr := (hq m.peer).2.2.2
    rw [World.step, World.receive, hc m.peer, (hidle m.peer).2.1, Mode.peer_peer] at hr
    cases hw : (w m).wire with
    | nil => rfl
    | cons f t =>
      rw [hw] at hr
      cases hr
  have hqueued : (w m).queuedOf id = [] := by
    cases hs : (w m).ends id with
    | none => rw [Active.queuedOf, hs]
    | some s =>
      rw [Active.queuedOf_of_some hs, Stream.queued]
      cases hch : s.channel with
      | nil => rfl
      | cons cmd tail =>
        exfalso
        have hl : id ∈ (w m).streams := by
          by_contra hl
          have hempty := (((hag.ok m).views id).unlisted s hs (decide_eq_false hl)).2
          rw [hch] at hempty
          cases hempty
        have hready : ((w m).pollNext id).isSome = true := by
          rw [Active.pollNext, hs]
          simp only [Option.bind_eq_bind, Option.bind_some, hch]
          rfl
        have hbytes : (w m).pendingBytes = 0 := by
          rw [(hmet m).bytes, hpe]
          rfl
        have hmax : 0 < (w m).maxPendingBytes := by
          have h1 : 0 < (w m).config.maxNumStreams :=
            Nat.lt_of_lt_of_le (List.length_pos_of_mem hl) (hmet m).cap
          have h2 := Nat.mul_pos h1 (w m).config.split_pos
          rw [Active.maxPendingBytes]
          exact Nat.lt_min.mpr ⟨h2, by decide⟩
        exact Active.queue_isSome ((hag.ok m).polled id hl) hready (by rw [hbytes]; exact hmax)
          (hact m .queue (hq m).1)
  simp [View.line, Active.view, Active.backlog, hwire, hso, hpr, hct, hpe, hqueued]

end Molehill.Mux
