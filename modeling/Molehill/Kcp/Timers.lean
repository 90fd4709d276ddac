/-
# `check` and `update`

`check` says how long the pump may wait: until the flush time, until the first resend time, or for
an interval.  `update` looks at the flush time only.  Both read the clock modulo 2^32, and both take
a flush time that is ten seconds away for one that is due.

So a wait that `check` allows is always quiet: no timer falls into it.  A wait of none is another
matter: the resend time of a segment may have come before the flush time, and `update` then leaves
the segment to the flush (`check_zero_no_flush`).  The pump waits a millisecond there.
-/
import Molehill.Kcp.RoundTrip
import Molehill.Kcp.Segmentation

namespace Molehill

open Lib

namespace Kcp

/-! ## 1. The pump's wait -/

/-- `update_due`: the updates that are due, and the wait until the next one.  The clock is read
anew, at `now₂` and `now₃`, when there is one. -/
def updateDue (k : Kcp) (now₁ now₂ now₃ : U32) : Option (Kcp × U32) :=
  let delay := wmin (k.check now₁) 1000
  if delay = 0 then
    match k.update now₂ with
    | (k, .ok _) =>
      let delay := wmin (k.check now₃) 1000
      some (k, if delay = 0 then 1 else delay)
    | (_, .error _) => none
  else some (k, delay)

/-- No resend time and no flush time falls before `now + delay`. -/
def Quiet (k : Kcp) (now delay : U32) : Prop :=
  delay.toNat ≤ timediff k.tsFlush now ∧ ∀ s ∈ k.sndBuf, delay.toNat ≤ timediff s.resendts now

variable {k : Kcp} {now delay : U32}

/-- A shorter wait. -/
theorem Quiet.of_le (h : k.Quiet now delay) {d : U32} (hd : d.toNat ≤ delay.toNat) :
    k.Quiet now d := by
  have hle : (d.toNat : Int) ≤ delay.toNat := by exact_mod_cast hd
  exact ⟨Int.le_trans hle h.1, fun s hs => Int.le_trans hle (h.2 s hs)⟩

/-! ## 2. The flush time -/

theorem timediff_self (a : U32) : timediff a a = 0 := by
  rw [timediff, seqDiff, BitVec.sub_self]
  rfl

/-- Two times that are not opposite are as far apart from either side. -/
theorem timediff_swap {a b : U32} (h : -2 ^ 31 < timediff a b) : timediff b a = -timediff a b := by
  have hne : a - b ≠ BitVec.intMin 32 := by
    intro heq
    have hmin : timediff a b = (BitVec.intMin 32).toInt := congrArg BitVec.toInt heq
    rw [hmin] at h
    exact absurd h (by decide)
  have hneg : b - a = -(a - b) := by
    rw [BitVec.neg_sub, BitVec.sub_eq_add_neg, BitVec.add_comm]
  rw [timediff, seqDiff, hneg, BitVec.toInt_neg_of_ne_intMin hne]
  rfl

/-- **An update does not flush** exactly when the flush time is ahead, by ten seconds at most. -/
theorem updateFlushes_eq_none_iff (k : Kcp) (now : U32) :
    k.updateFlushes now = none ↔
      k.flags.updated = true ∧ -10000 ≤ timediff now k.tsFlush ∧ timediff now k.tsFlush < 0 := by
  have hself := timediff_self now
  unfold updateFlushes markUpdated
  cases hup : k.flags.updated with
  | false => simp [clockJumped, hself]
  | true =>
    simp only [Bool.not_true, Bool.false_eq_true, if_false, true_and]
    unfold clockJumped
    dsimp only
    constructor
    · intro h
      split at h
      case isTrue => cases h
      case isFalse hnear =>
        split at h
        case isTrue => cases h
        case isFalse hahead =>
          have hnear := of_decide_eq_false (Bool.eq_false_iff.mpr hnear)
          omega
    · rintro ⟨hfar, hahead⟩
      have hnear : ¬ (timediff now k.tsFlush < -10000 ∨ 10000 ≤ timediff now k.tsFlush) := by
        omega
      rw [if_neg (by rw [decide_eq_false hnear]; decide), if_neg (by omega)]

/-! ## 3. The resend times -/

/-- A segment that is due. -/
theorem resendDue_eq_none_iff (now : U32) (buf : List KcpSegment) (due : U32) :
    resendDue now buf due = none ↔ ∃ s ∈ buf, timediff s.resendts now ≤ 0 := by
  induction buf generalizing due with
  | nil => simp [resendDue]
  | cons seg rest ih =>
    rw [resendDue, List.exists_mem_cons_iff]
    split
    case isTrue h => exact ⟨fun _ => Or.inl h, fun _ => rfl⟩
    case isFalse h =>
      rw [ih]
      exact ⟨Or.inr, fun hor => hor.resolve_left h⟩

/-- The time from now to a time ahead, as a word. -/
theorem toNat_ofInt_timediff {a b : U32} (h : 0 < timediff a b) :
    ((BitVec.ofInt 32 (timediff a b)).toNat : Int) = timediff a b := by
  have hlt : timediff a b < 2 ^ 31 := BitVec.toInt_lt (x := a - b)
  rw [BitVec.toNat_ofInt]
  omega

/-- **The first resend time**: none is before it. -/
theorem resendDue_some {now : U32} {buf : List KcpSegment} {due d : U32} (hpos : 0 < due.toNat)
    (h : resendDue now buf due = some d) :
    0 < d.toNat ∧ d.toNat ≤ due.toNat ∧ ∀ s ∈ buf, (d.toNat : Int) ≤ timediff s.resendts now := by
  induction buf generalizing due with
  | nil =>
    cases h
    exact ⟨hpos, Nat.le_refl _, nofun⟩
  | cons seg rest ih =>
    rw [resendDue] at h
    split at h
    case isTrue => cases h
    case isFalse hahead =>
      have hword := toNat_ofInt_timediff (Int.not_le.mp hahead)
      have hmin := toNat_wmin due (BitVec.ofInt 32 (timediff seg.resendts now))
      obtain ⟨hd, hle, hrest⟩ := ih (by omega) h
      refine ⟨hd, by omega, fun s hs => ?_⟩
      rcases List.mem_cons.mp hs with rfl | hs
      · omega
      · exact hrest s hs

/-! ## 4. `check` -/

/-- Where an update does not flush, `check` goes through the segments. -/
theorem check_of_none (h : k.updateFlushes now = none) :
    k.check now = match resendDue now k.sndBuf (BitVec.ofNat 32 (2 ^ 32 - 1)) with
      | none => 0
      | some due => wmin (wmin due (BitVec.ofInt 32 (timediff k.tsFlush now))) k.interval := by
  obtain ⟨hup, hnear, hahead⟩ := (updateFlushes_eq_none_iff k now).mp h
  have hkeep : ¬ (10000 ≤ timediff now k.tsFlush ∨ timediff now k.tsFlush < -10000) := by
    omega
  rw [check, hup]
  dsimp only
  rw [if_neg (by decide), if_neg hkeep]
  exact if_neg (by omega)

/-- An update that flushes is due. -/
theorem check_of_flushes (h : k.updateFlushes now ≠ none) : k.check now = 0 := by
  rw [ne_eq, updateFlushes_eq_none_iff] at h
  have hself := timediff_self now
  rw [check]
  cases hup : k.flags.updated with
  | false => rfl
  | true =>
    dsimp only
    rw [if_neg (by decide)]
    split
    case isTrue => rw [if_pos (by omega)]
    case isFalse hnear =>
      have hdue : 0 ≤ timediff now k.tsFlush := by
        have hor : ¬ (-10000 ≤ timediff now k.tsFlush ∧ timediff now k.tsFlush < 0) :=
          fun hand => h ⟨hup, hand⟩
        omega
      rw [if_pos hdue]

/-- A wait that `check` allows, from the segments and the flush time. -/
theorem check_some (hint : 0 < k.interval.toNat) (h : k.updateFlushes now = none) {due : U32}
    (hdue : resendDue now k.sndBuf (BitVec.ofNat 32 (2 ^ 32 - 1)) = some due) :
    0 < (k.check now).toNat ∧ k.Quiet now (k.check now) := by
  obtain ⟨-, hnear, hahead⟩ := (updateFlushes_eq_none_iff k now).mp h
  have hflush := timediff_swap (a := now) (b := k.tsFlush) (by omega)
  have hword := toNat_ofInt_timediff (a := k.tsFlush) (b := now) (by omega)
  obtain ⟨hpos, -, hsegs⟩ := resendDue_some (by decide) hdue
  rw [check_of_none h, hdue]
  dsimp only
  have hfirst := toNat_wmin due (BitVec.ofInt 32 (timediff k.tsFlush now))
  have hwait := toNat_wmin (wmin due (BitVec.ofInt 32 (timediff k.tsFlush now))) k.interval
  refine ⟨by omega, by omega, fun s hs => ?_⟩
  have hseg := hsegs s hs
  omega

/-- **`check` says none** exactly when an update flushes or a segment is due. -/
theorem check_eq_zero_iff (hint : 0 < k.interval.toNat) :
    k.check now = 0 ↔
      k.updateFlushes now ≠ none ∨ ∃ s ∈ k.sndBuf, timediff s.resendts now ≤ 0 := by
  rw [← resendDue_eq_none_iff now k.sndBuf (BitVec.ofNat 32 (2 ^ 32 - 1))]
  by_cases hflush : k.updateFlushes now = none
  · cases hdue : resendDue now k.sndBuf (BitVec.ofNat 32 (2 ^ 32 - 1)) with
    | none =>
      rw [check_of_none hflush, hdue]
      exact ⟨fun _ => Or.inr rfl, fun _ => rfl⟩
    | some due =>
      have hpos := (check_some hint hflush hdue).1
      constructor
      · intro hzero
        rw [hzero] at hpos
        cases hpos
      · rintro (hne | hnone)
        · exact absurd hflush hne
        · cases hnone
  · exact ⟨fun _ => Or.inl hflush, fun _ => check_of_flushes hflush⟩

/-- **What `check` allows is quiet.** -/
theorem quiet_check (hint : 0 < k.interval.toNat) (h : k.check now ≠ 0) :
    k.Quiet now (k.check now) := by
  have hnot := fun hor => h ((check_eq_zero_iff hint).mpr hor)
  have hflush : k.updateFlushes now = none := by
    by_contra hne
    exact hnot (Or.inl hne)
  cases hdue : resendDue now k.sndBuf (BitVec.ofNat 32 (2 ^ 32 - 1)) with
  | none => exact absurd (Or.inr ((resendDue_eq_none_iff _ _ _).mp hdue)) hnot
  | some due => exact (check_some hint hflush hdue).2

/-! ## 5. The pump -/

/-- The pump's bound of a second. -/
theorem wmin_second_eq_zero_iff (d : U32) : wmin d 1000 = 0 ↔ d = 0 := by
  have hmin : (wmin d 1000).toNat = min d.toNat 1000 := toNat_wmin d 1000
  constructor
  · intro h
    rw [h] at hmin
    exact BitVec.eq_of_toNat_eq (show d.toNat = 0 by have hz : (0 : U32).toNat = 0 := rfl; omega)
  · rintro rfl
    rfl

/-- Within a second, what `check` allows is quiet. -/
theorem quiet_second (hint : 0 < k.interval.toNat) (h : wmin (k.check now) 1000 ≠ 0) :
    k.Quiet now (wmin (k.check now) 1000) := by
  have hcheck : k.check now ≠ 0 := fun hzero => h ((wmin_second_eq_zero_iff _).mpr hzero)
  refine (quiet_check hint hcheck).of_le ?_
  rw [toNat_wmin]
  exact Nat.min_le_left _ _

/-- **The pump's wait** is never none.  It is quiet, or a millisecond where `check` still says none
after the update. -/
theorem updateDue_spec (hk : Configured k) (now₁ now₂ now₃ : U32) :
    ∃ k' d, k.updateDue now₁ now₂ now₃ = some (k', d) ∧ 0 < d.toNat ∧
      (k' = k ∧ k.Quiet now₁ d ∨
        k' = (k.update now₂).1 ∧ (k'.Quiet now₃ d ∨ d = 1 ∧ k'.check now₃ = 0)) := by
  have hpos : ∀ d : U32, d ≠ 0 → 0 < d.toNat := fun d hd =>
    Nat.pos_of_ne_zero fun h0 => hd (BitVec.eq_of_toNat_eq h0)
  have hint : 0 < k.interval.toNat := Nat.lt_of_lt_of_le (by decide) hk.interval.1
  have hk' : Configured (k.update now₂).1 := hk.after (.act (.update now₂))
  have hint' : 0 < (k.update now₂).1.interval.toNat :=
    Nat.lt_of_lt_of_le (by decide) hk'.interval.1
  unfold updateDue
  by_cases hdue : wmin (k.check now₁) 1000 = 0
  · have hup := (update_ok k now₂).1
    cases hu : k.update now₂ with
    | mk k' r =>
      rw [hu] at hup hint'
      cases hup
      refine ⟨k', if wmin (k'.check now₃) 1000 = 0 then 1 else wmin (k'.check now₃) 1000, ?_⟩
      refine ⟨by rw [if_pos hdue], ?_⟩
      split
      case isTrue hzero =>
        exact ⟨by decide, Or.inr ⟨rfl, Or.inr ⟨rfl, (wmin_second_eq_zero_iff _).mp hzero⟩⟩⟩
      case isFalse hwait =>
        exact ⟨hpos _ hwait, Or.inr ⟨rfl, Or.inl (quiet_second hint' hwait)⟩⟩
  · exact ⟨k, _, if_neg hdue, hpos _ hdue, Or.inl ⟨rfl, quiet_second hint hdue⟩⟩

end Kcp

/-- The pump's head is `update_due`, and the path's datagram size. -/
theorem Pump.pumpHead_eq {cap : Nat} (s : Pump cap) (mtu : Option Nat) {k' : Kcp} {d : U32}
    (h : s.kcp.updateDue s.msNow s.msNow s.msNow = some (k', d)) :
    s.pumpHead mtu =
      { s.setKcp (Pump.maybePathMtu k' mtu) with phase := .select, sentAny := false } := by
  unfold Kcp.updateDue at h
  unfold Pump.pumpHead
  by_cases hdue : s.kcp.check s.msNow = 0
  · rw [if_pos ((Kcp.wmin_second_eq_zero_iff _).mpr hdue)] at h
    rw [if_pos hdue]
    cases hu : s.kcp.update s.msNow with
    | mk k r =>
      rw [hu] at h
      cases r with
      | ok =>
        cases h
        rfl
      | error => cases h
  · rw [if_neg fun hzero => hdue ((Kcp.wmin_second_eq_zero_iff _).mp hzero)] at h
    rw [if_neg hdue]
    cases h
    rfl

/-! ## 6. Every reachable engine -/

/-- **`check` and `update`.**  `check` says none exactly when `update` flushes, or the resend time
of a segment has come; an update that does not flush has its flush time ahead, by ten seconds at
most.  A wait that `check` allows has no timer in it.  The pump never waits for nothing, and never
past a timer that is ahead; what it does at its head is `update_due`. -/
theorem check_update {k : Kcp} (h : engine.Reach k) (now : U32) :
    (k.check now = 0 ↔
      (∃ k', k.flushing (.act (.update now)) = some k' ∧ k.update now = k'.flush) ∨
        ∃ s ∈ k.sndBuf, timediff s.resendts now ≤ 0) ∧
    (k.flushing (.act (.update now)) = none →
      0 < timediff k.tsFlush now ∧ timediff k.tsFlush now ≤ 10000) ∧
    (k.check now ≠ 0 → k.Quiet now (k.check now)) ∧
    (∀ now₂ now₃, ∃ k' d, k.updateDue now now₂ now₃ = some (k', d) ∧ 0 < d.toNat ∧
      (k' = k ∧ k.Quiet now d ∨
        k' = (k.update now₂).1 ∧ (k'.Quiet now₃ d ∨ d = 1 ∧ k'.check now₃ = 0))) ∧
    ∀ (cap : Nat) (s : Pump cap) (mtu : Option Nat), s.kcp = k →
      ∃ k' d, k.updateDue s.msNow s.msNow s.msNow = some (k', d) ∧
        s.pumpHead mtu =
          { s.setKcp (Pump.maybePathMtu k' mtu) with phase := .select, sentAny := false } := by
  have hk := engine_configured h
  have hint : 0 < k.interval.toNat := Nat.lt_of_lt_of_le (by decide) hk.interval.1
  have hflushes : k.updateFlushes now ≠ none ↔
      ∃ k', k.flushing (.act (.update now)) = some k' ∧ k.update now = k'.flush := by
    obtain ⟨tsFlush, ⟨hsome, hflush⟩ | ⟨hnone, -⟩⟩ := k.update_flushes now
    · exact ⟨fun _ => ⟨_, hsome, hflush⟩, fun _ => by rw [hsome]; nofun⟩
    · refine ⟨fun hne => absurd hnone hne, ?_⟩
      rintro ⟨k', hsome, -⟩
      cases hnone.symm.trans hsome
  refine ⟨?_, fun hnone => ?_, Kcp.quiet_check hint, Kcp.updateDue_spec hk now, ?_⟩
  · rw [Kcp.check_eq_zero_iff hint, hflushes]
  · obtain ⟨-, hnear, hahead⟩ := (Kcp.updateFlushes_eq_none_iff k now).mp hnone
    have hswap := Kcp.timediff_swap (a := now) (b := k.tsFlush) (by omega)
    omega
  · rintro cap s mtu rfl
    obtain ⟨k', d, hdue, -⟩ := Kcp.updateDue_spec hk s.msNow s.msNow s.msNow
    exact ⟨k', d, hdue, s.pumpHead_eq mtu hdue⟩

/-- A byte goes out at once, and the flushes at 100 and 200 are too early to send it again. -/
def unanswered : List EngineEvent :=
  [.act (.update 0), .act (.send [1]), .act .flush, .act (.update 100), .act (.update 200)]

/-- The byte is due at 225, and `check` says so; the next flush time is 300. -/
theorem check_update_unanswered :
    ∃ k : Kcp, k.check 210 = 15 ∧ k.Quiet 210 15 := by
  have hrun : (Lts.runWith (fun k e => some (Kcp.after k e)) (fun _ _ => true)
      (newStream 7) unanswered).any (fun k => k.check 210 = 15) = true := by
    decide +kernel
  obtain ⟨k, hk, hp⟩ := Lts.Reach.exists_run (T := engine)
    (fun k e k' h => (Option.some.inj h :)) ⟨7, rfl⟩ hrun
  have hcheck : k.check 210 = 15 := of_decide_eq_true hp
  have hquiet := (check_update hk 210).2.2.1
  rw [hcheck] at hquiet
  exact ⟨k, hcheck, hquiet (by decide)⟩

/-- **A segment is due before the flush time.**  At 230 `check` says none, and `update` neither
flushes nor sends. -/
theorem check_zero_no_flush :
    ∃ k : Kcp, engine.Reach k ∧ k.check 230 = 0 ∧ k.flushing (.act (.update 230)) = none ∧
      (k.update 230).1.output = k.output := by
  have hrun : (Lts.runWith (fun k e => some (Kcp.after k e)) (fun _ _ => true)
      (newStream 7) unanswered).any (fun k => k.check 230 = 0 ∧
        (k.flushing (.act (.update 230))).isNone ∧
        (k.update 230).1.output = k.output) = true := by
    decide +kernel
  obtain ⟨k, hk, hp⟩ := Lts.Reach.exists_run (T := engine)
    (fun k e k' h => (Option.some.inj h :)) ⟨7, rfl⟩ hrun
  obtain ⟨hcheck, hnone, hout⟩ := of_decide_eq_true hp
  exact ⟨k, hk, hcheck, Option.isNone_iff_eq_none.mp hnone, hout⟩

end Molehill
