/-
# The UDP worker pool: the ceiling on the worker set

`max_udp_workers` is the ceiling on a UDP service's worker set (`common/constants.rs`).  Three paths
ask the client for one more channel: a datagram that found no room, a worker with many peers at the
retire tick, and the guard of a worker that ended; `note_udp_pressure` and `retire_idle_udp_worker`
leave the ceiling to the client, and the client opens a channel for every request
(`open_placed_channel`, `core/client.rs`), so nobody counts what is on its way.

A worker that ended still has its place: its guard is about to ask for the replacement.  So the
places taken (`load`) are the live workers, the guards that have not decided yet, the requests, the
channels being opened and those not taken yet.  An exit and its replacement leave them as they are,
and the ceiling holds in every run in which more is asked for, or comes in late, only while a place
is free (`workers_within_ceiling`).
-/
import Molehill.Server.UdpPool
import Molehill.Lib.Tally

namespace Molehill.Server.Udp

open Lib Function

/-! ## 1. The places taken -/

/-- The guard took its worker out of the map, and may still ask for a replacement. -/
def Worker.owes {Peer : Type} (w : Worker Peer) : Bool :=
  match w.stage with
  | .removed | .asking => true
  | _ => false

namespace Pool

variable {Peer : Type}

/-- The workers of the map, those about to be replaced, and those on their way. -/
def load (s : Pool Peer) : Nat :=
  s.workers.keys.length + s.tasks.countP Worker.owes + s.requests + s.openings + s.arrived

variable [DecidableEq Peer]

/-- **Whether the step asks for more only while a place is free**: a datagram that finds no room, a
retire tick that finds a busy worker, and a channel nobody of this registration asked for. -/
def withinCeiling (s : Pool Peer) : Event Peer → Bool
  | .datagram peer order =>
    (s.routeUdpDatagram peer order).2 = .enqueued || s.now - s.lastGrowth < growthPause ||
      s.load < s.maxWorkers
  | .tick =>
    !(2 < s.busiest && s.workers.keys.length < s.maxWorkers) || s.load < s.maxWorkers
  | .late => s.load < s.maxWorkers
  | _ => true

end Pool

/-! ## 2. What a step does to them -/

namespace Pool

variable {Peer : Type} {s s' : Pool Peer} {e : Event Peer}

theorem length_keys_insert_le (t : Table Nat Nat) (k v : Nat) :
    (t.insert k v).keys.length ≤ t.keys.length + 1 := by
  rw [AList.keys_insert, List.length_cons]
  exact Nat.succ_le_succ (List.length_erase_le)

theorem length_keys_erase_le (t : Table Nat Nat) (k : Nat) :
    (t.erase k).keys.length ≤ t.keys.length := by
  rw [AList.keys_erase]
  exact List.length_erase_le

theorem length_keys_erase_add_one {t : Table Nat Nat} {k v : Nat} (h : t.lookup k = some v) :
    (t.erase k).keys.length + 1 = t.keys.length := by
  have hmem : k ∈ t.keys := AList.mem_keys.mp (AList.lookup_isSome.mp (by rw [h]; rfl))
  rw [AList.keys_erase, List.length_erase_of_mem hmem]
  exact Nat.succ_pred_eq_of_pos (List.length_pos_of_mem hmem)

/-- One worker moves on. -/
theorem load_setTask {k : Nat} {w : Worker Peer} (hw : s.tasks[k]? = some w) (w' : Worker Peer) :
    (s.setTask k w').load + w.owes.toNat = s.load + w'.owes.toNat := by
  have hset := countP_set_add (p := Worker.owes) hw w'
  dsimp only [Pool.load, setTask]
  omega

/-- A worker whose guard has nothing to ask for. -/
theorem load_setTask_le {k : Nat} {w w' : Worker Peer} (hw : s.tasks[k]? = some w)
    (h : w'.owes = false) : (s.setTask k w').load ≤ s.load := by
  have hset := load_setTask hw w'
  rw [h, Bool.toNat_false] at hset
  omega

/-- A routed datagram takes no place. -/
theorem SameSet.load (h : SameSet s s') : s'.load = s.load := by
  unfold Pool.load
  rw [h.workers, h.requests, h.openings, h.arrived]
  rcases h.tasks with heq | ⟨k, w, queue, hw, heq⟩
  · rw [heq]
  · have hset := countP_set_add (p := Worker.owes) hw { w with queue := queue }
    have hsame : Worker.owes { w with queue := queue } = w.owes := rfl
    rw [hsame] at hset
    rw [heq]
    omega

theorem load_noteUdpPressure_le {outcome : UdpRouteOutcome}
    (h : outcome = .enqueued ∨ s.now - s.lastGrowth < growthPause ∨ s.load < s.maxWorkers)
    (hle : s.load ≤ s.maxWorkers) : (s.noteUdpPressure outcome).load ≤ s.maxWorkers := by
  unfold noteUdpPressure
  split
  case isTrue => exact hle
  case isFalse hno =>
    have hroom : s.load < s.maxWorkers := by
      rcases h with h | h | h
      · exact absurd (.inl h) hno
      · exact absurd (.inr h) hno
      · exact h
    dsimp only [Pool.load, request] at hroom ⊢
    omega

theorem maxWorkers_noteUdpPressure (outcome : UdpRouteOutcome) :
    (s.noteUdpPressure outcome).maxWorkers = s.maxWorkers := by
  unfold noteUdpPressure
  split <;> rfl

theorem load_growthCheck_le
    (h : (2 < s.busiest ∧ s.workers.keys.length < s.maxWorkers) → s.load < s.maxWorkers)
    (hle : s.load ≤ s.maxWorkers) : s.growthCheck.load ≤ s.maxWorkers := by
  unfold growthCheck
  split
  case isTrue hgrow =>
    have hroom := h hgrow
    dsimp only [Pool.load, request] at hroom ⊢
    omega
  case isFalse => exact hle

theorem maxWorkers_growthCheck : s.growthCheck.maxWorkers = s.maxWorkers := by
  unfold growthCheck
  split <;> rfl

theorem load_retireIdle_le : s.retireIdle.load ≤ s.load := by
  unfold retireIdle
  split
  case isTrue => exact Nat.le_refl _
  case isFalse =>
    cases s.retirable.max? with
    | none => exact Nat.le_refl _
    | some id =>
      have hle := length_keys_erase_le s.workers id
      dsimp only [Option.elim_some, Pool.load, retireId]
      omega

theorem maxWorkers_retireIdle : s.retireIdle.maxWorkers = s.maxWorkers := by
  unfold retireIdle
  split
  · rfl
  · cases s.retirable.max? <;> rfl

/-- A channel that was waiting becomes a worker. -/
theorem load_spawnWorker_le (h : 0 < s.arrived) :
    { s with arrived := s.arrived - 1 }.spawnWorker.load ≤ s.load := by
  have hkeys := length_keys_insert_le s.workers s.next s.tasks.length
  dsimp only [Pool.load, spawnWorker, moveCursor]
  rw [List.countP_append]
  have hnew : List.countP Worker.owes
      [({ id := s.next, queue := [], stage := .serving, exit := none, asked := 0 } : Worker Peer)] =
      0 := rfl
  omega

/-- The guard's first access: what the map loses, the guard has. -/
theorem load_guardRemove_le {k : Nat} {w : Worker Peer} (hw : s.tasks[k]? = some w)
    (h : s.guardRemove k w = some s') : s'.load ≤ s.load ∧ s'.maxWorkers = s.maxWorkers := by
  unfold guardRemove at h
  split at h
  case h_1 id hstage hid =>
    cases h
    refine ⟨?_, rfl⟩
    have hkeys := length_keys_erase_add_one hid
    have hset := load_setTask hw { w with stage := .removed }
    have hnew : Worker.owes { w with stage := .removed } = true := rfl
    rw [hnew, Bool.toNat_true] at hset
    dsimp only [Pool.load, setTask] at hset ⊢
    omega
  case h_2 hstage hid =>
    cases h
    exact ⟨load_setTask_le hw rfl, rfl⟩
  case h_3 => cases h

theorem load_guardCheck_le {k : Nat} {w : Worker Peer} (hw : s.tasks[k]? = some w)
    (h : s.guardCheck k w = some s') : s'.load ≤ s.load ∧ s'.maxWorkers = s.maxWorkers := by
  unfold guardCheck at h
  split at h
  case h_1 hstage =>
    split at h
    case isTrue =>
      cases h
      exact ⟨load_setTask_le hw rfl, rfl⟩
    case isFalse =>
      cases h
      refine ⟨?_, rfl⟩
      have hset := load_setTask hw { w with
        stage := .asking, exit := some (if s.signalled then .shutdown else .unexpected) }
      have hold : w.owes = true := by rw [Worker.owes, hstage]
      have hnew : Worker.owes { w with
        stage := .asking, exit := some (if s.signalled then .shutdown else .unexpected) } = true :=
        rfl
      rw [hold, hnew] at hset
      omega
  case h_2 => cases h

/-- Its last access: what the guard had, the request has. -/
theorem load_guardAsk_le {k : Nat} {w : Worker Peer} (hw : s.tasks[k]? = some w)
    (h : s.guardAsk k w = some s') : s'.load ≤ s.load ∧ s'.maxWorkers = s.maxWorkers := by
  unfold guardAsk at h
  split at h
  case h_1 hstage =>
    split at h
    case isTrue =>
      cases h
      have hle : (s.setTask k { w with stage := .over }).load ≤ s.load := load_setTask_le hw rfl
      exact ⟨hle, rfl⟩
    case isFalse =>
      cases h
      refine ⟨?_, rfl⟩
      have hset := load_setTask hw { w with stage := .over, asked := w.asked + 1 }
      have hold : w.owes = true := by rw [Worker.owes, hstage]
      have hnew : Worker.owes { w with stage := .over, asked := w.asked + 1 } = false := rfl
      rw [hold, hnew, Bool.toNat_true, Bool.toNat_false] at hset
      dsimp only [Pool.load, request] at hset ⊢
      omega
  case h_2 => cases h

variable [DecidableEq Peer]

/-- **One step** that asks for more only while a place is free keeps within the ceiling. -/
theorem load_step_le (h : s.step e = some s') (hc : s.withinCeiling e = true)
    (hle : s.load ≤ s.maxWorkers) : s'.load ≤ s'.maxWorkers := by
  cases e with
  | pass ms =>
    cases h
    exact hle
  | signal =>
    cases h
    exact hle
  | stop =>
    simp only [step, Option.ite_none_right_eq_some, Option.some.injEq] at h
    obtain ⟨-, rfl⟩ := h
    exact hle
  | read opens =>
    simp only [step, Option.ite_none_right_eq_some, Option.some.injEq] at h
    obtain ⟨hpos, rfl⟩ := h
    have hone := Bool.toNat_le opens
    dsimp only [Pool.load] at hle ⊢
    omega
  | connect ok =>
    simp only [step, Option.ite_none_right_eq_some, Option.some.injEq] at h
    obtain ⟨hpos, rfl⟩ := h
    have hone := Bool.toNat_le ok
    dsimp only [Pool.load] at hle ⊢
    omega
  | late =>
    cases h
    have hroom := of_decide_eq_true hc
    dsimp only [Pool.load] at hroom ⊢
    omega
  | channel ok =>
    simp only [step, Option.ite_none_right_eq_some, Option.some.injEq] at h
    obtain ⟨⟨-, hpos⟩, rfl⟩ := h
    split
    case isTrue => exact (load_spawnWorker_le hpos).trans hle
    case isFalse =>
      dsimp only [Pool.load] at hle ⊢
      omega
  | datagram peer order =>
    simp only [step, Option.ite_none_right_eq_some, Option.some.injEq] at h
    obtain ⟨-, rfl⟩ := h
    have hsame := (routed s peer order).sameSet
    rw [maxWorkers_noteUdpPressure]
    refine load_noteUdpPressure_le ?_ (by rwa [hsame.load, hsame.maxWorkers])
    rw [hsame.now, hsame.lastGrowth, hsame.load, hsame.maxWorkers]
    simpa [withinCeiling, or_assoc] using hc
  | tick =>
    simp only [step, Option.ite_none_right_eq_some, Option.some.injEq] at h
    obtain ⟨-, rfl⟩ := h
    refine (load_growthCheck_le ?_ hle).trans_eq maxWorkers_growthCheck.symm
    rintro ⟨hbusy, hlen⟩
    simpa [withinCeiling, hbusy, hlen] using hc
  | retire =>
    simp only [step, Option.ite_none_right_eq_some, Option.some.injEq] at h
    obtain ⟨-, rfl⟩ := h
    exact (load_retireIdle_le.trans hle).trans_eq maxWorkers_retireIdle.symm
  | sweep =>
    simp only [step, Option.ite_none_right_eq_some, Option.some.injEq] at h
    obtain ⟨-, rfl⟩ := h
    exact hle
  | forward k =>
    obtain ⟨w, hw, h⟩ := Option.bind_eq_some_iff.mp h
    unfold forward at h
    split at h
    case h_1 hstage _ =>
      cases h
      refine Nat.le_trans ?_ hle
      exact load_setTask_le hw (by rw [Worker.owes, hstage])
    case h_2 => cases h
  | leave k cause =>
    obtain ⟨w, hw, h⟩ := Option.bind_eq_some_iff.mp h
    simp only [leave, Option.ite_none_right_eq_some, Option.some.injEq] at h
    obtain ⟨-, rfl⟩ := h
    exact (load_setTask_le hw rfl).trans hle
  | remove k =>
    obtain ⟨w, hw, h⟩ := Option.bind_eq_some_iff.mp h
    obtain ⟨hload, hmax⟩ := load_guardRemove_le hw h
    exact hmax ▸ hload.trans hle
  | check k =>
    obtain ⟨w, hw, h⟩ := Option.bind_eq_some_iff.mp h
    obtain ⟨hload, hmax⟩ := load_guardCheck_le hw h
    exact hmax ▸ hload.trans hle
  | ask k =>
    obtain ⟨w, hw, h⟩ := Option.bind_eq_some_iff.mp h
    obtain ⟨hload, hmax⟩ := load_guardAsk_le hw h
    exact hmax ▸ hload.trans hle

/-- **The ceiling holds.**  In every run in which pressure and busy workers ask for another channel,
and channels of an earlier registration come in, only while a place is free, the live workers are
never more than `max_udp_workers`. -/
theorem workers_within_ceiling
    (h : ((udpPool Peer).restrict fun s e => s.withinCeiling e = true).Reach s) :
    s.workers.keys.length ≤ s.maxWorkers := by
  have hload : s.load ≤ s.maxWorkers := by
    refine h.invariant (P := fun s => s.load ≤ s.maxWorkers) ?_ ?_
    · rintro s ⟨maxWorkers, hpos, rfl⟩
      exact hpos
    · intro s e s' hle hstep
      exact load_step_le hstep.2 hstep.1 hle
  unfold Pool.load at hload
  omega

end Pool

/-- The only worker the ceiling allows ends, and its replacement comes. -/
def replacedRun : List (Event Nat) :=
  [.connect true, .channel true, .pass 1000, .leave 0 .lost, .remove 0, .check 0, .ask 0, .read true,
    .connect true, .channel true]

theorem workers_within_ceiling_replaced :
    ∃ s : Pool Nat, ((udpPool Nat).restrict fun s e => s.withinCeiling e = true).Reach s ∧
      s.tasks.length = 2 ∧ s.maxWorkers = 1 ∧ s.workers.keys.length ≤ 1 := by
  have hrun : (Lts.runWith Pool.step Pool.withinCeiling (.new 1 : Pool Nat) replacedRun).any (fun s =>
      decide (s.tasks.length = 2 ∧ s.maxWorkers = 1)) = true := by
    decide +kernel
  obtain ⟨s, hs, hfacts⟩ := Lts.Reach.exists_runWith (T := udpPool Nat)
    (C := fun s e => s.withinCeiling e = true) (fun _ _ _ h => h) (fun _ _ h => h)
    (s := .new 1) ⟨1, Nat.one_pos, rfl⟩ hrun
  obtain ⟨htasks, hmax⟩ := of_decide_eq_true hfacts
  have hlen := Pool.workers_within_ceiling hs
  rw [hmax] at hlen
  exact ⟨s, hs, htasks, hmax, hlen⟩

/-- Two datagrams that come before the first channel ask for one more each. -/
def overshootRun : List (Event Nat) :=
  [.pass 1000, .datagram 7 [], .pass 1000, .datagram 7 [], .connect true, .channel true, .read true,
    .read true, .connect true, .connect true, .channel true, .channel true]

/-- **Three workers where two are allowed.** -/
theorem ceiling_exceeded :
    ∃ s : Pool Nat, (udpPool Nat).Reach s ∧ s.maxWorkers = 2 ∧ s.workers.keys.length = 3 := by
  have hrun : (Lts.runWith Pool.step (fun _ _ => true) (.new 2 : Pool Nat) overshootRun).any (fun s =>
      decide (s.maxWorkers = 2 ∧ s.workers.keys.length = 3)) = true := by
    decide +kernel
  obtain ⟨s, hs, hfacts⟩ := Lts.Reach.exists_run (T := udpPool Nat) (fun _ _ _ h => h)
    (s := .new 2) ⟨2, Nat.two_pos, rfl⟩ hrun
  exact ⟨s, hs, of_decide_eq_true hfacts⟩

end Molehill.Server.Udp
